import Mathlib.Data.Finset.Card
import Mathlib.Data.List.Basic
import Mathlib.Logic.Relation

/-! # Depth-first search

`visit` lists what can be reached from an entry, each entry after everything below it. It carries fuel,
since the edges may run in a circle; an entry that was met before is not entered again, so as much fuel
as there are unmet entries is enough. Where the edges run in no circle, every entry comes after its
children.
-/

namespace Duroxide.Lib

/-- What a search has met, and what it has left behind for good, oldest first. -/
structure Search (α : Type) where
  visited : List α := []
  order : List α := []

namespace Search

variable {α : Type} [DecidableEq α] (children : α → List α)

/-- Enter an entry unless it was met: its children first, then itself. None when the fuel runs out. -/
def visit : Nat → Search α → α → Option (Search α)
  | 0, _, _ => none
  | fuel + 1, search, entry =>
      if entry ∈ search.visited then some search
      else do
        let below ← (children entry).foldlM (visit fuel) { search with visited := entry :: search.visited }
        return { below with order := below.order ++ [entry] }

/-! ## What a search adds -/

/-- A later search has left more behind, and has entered nothing else that it has not left. -/
structure Extends (before after : Search α) (added : List α) : Prop where
  order : after.order = before.order ++ added
  visited : ∀ entry, entry ∈ after.visited ↔ entry ∈ before.visited ∨ entry ∈ added
  fresh : ∀ entry ∈ added, entry ∉ before.visited
  distinct : added.Nodup

namespace Extends

variable {before middle after : Search α} {first second : List α}

omit [DecidableEq α] in
theorem refl (search : Search α) : Extends search search [] := by
  constructor <;> simp

omit [DecidableEq α] in
theorem trans (one : Extends before middle first) (two : Extends middle after second) :
    Extends before after (first ++ second) where
  order := by rw [two.order, one.order, List.append_assoc]
  visited entry := by rw [two.visited, one.visited, List.mem_append, or_assoc]
  fresh entry added := by
    rcases List.mem_append.mp added with earlier | later
    · exact one.fresh entry earlier
    · intro met
      exact two.fresh entry later ((one.visited entry).mpr (.inl met))
  distinct := by
    refine List.nodup_append.mpr ⟨one.distinct, two.distinct, ?_⟩
    rintro entry earlier _ later rfl
    exact two.fresh entry later ((one.visited entry).mpr (.inr earlier))

omit [DecidableEq α] in
/-- Entering an entry, and leaving it after everything below it. -/
theorem around {entry : α} (unmet : entry ∉ before.visited)
    (below : Extends { before with visited := entry :: before.visited } after first) :
    Extends before { after with order := after.order ++ [entry] } (first ++ [entry]) where
  order := by rw [below.order, List.append_assoc]
  visited other := by
    rw [below.visited, List.mem_cons, List.mem_append, List.mem_singleton]
    tauto
  fresh other added := by
    rcases List.mem_append.mp added with earlier | last
    · intro met
      exact below.fresh other earlier (List.mem_cons_of_mem entry met)
    · rwa [List.mem_singleton.mp last]
  distinct := by
    refine List.nodup_append.mpr ⟨below.distinct, List.nodup_cons.mpr ⟨List.not_mem_nil, List.nodup_nil⟩, ?_⟩
    rintro other earlier _ last rfl
    exact below.fresh other earlier (List.mem_singleton.mp last ▸ List.mem_cons_self)

end Extends

variable {children} {fuel : Nat} {search after : Search α} {entry : α} {entries : List α}

/-- A search entered an entry: it was met before, or its children were searched and it was left. -/
theorem visit_cases (visits : visit children (fuel + 1) search entry = some after) :
    (entry ∈ search.visited ∧ after = search) ∨
      entry ∉ search.visited ∧ ∃ below,
        (children entry).foldlM (visit children fuel) { search with visited := entry :: search.visited } = some below ∧
          after = { below with order := below.order ++ [entry] } := by
  rw [visit] at visits
  split_ifs at visits with met
  · exact .inl ⟨met, (Option.some.inj visits).symm⟩
  · obtain ⟨below, searched, last⟩ := Option.bind_eq_some_iff.mp visits
    exact .inr ⟨met, below, searched, (Option.some.inj last).symm⟩

omit [DecidableEq α] in
/-- What holds of a search and is kept by searching each entry holds when all of them were searched. -/
theorem foldlM_invariant (Holds : Search α → Prop) {step : Search α → α → Option (Search α)} (start : Holds search)
    (keeps : ∀ middle next, ∀ entry ∈ entries, Holds middle → step middle entry = some next → Holds next)
    (searched : entries.foldlM step search = some after) : Holds after := by
  induction entries generalizing search with
  | nil =>
    cases searched
    exact start
  | cons entry rest ih =>
    obtain ⟨middle, first, others⟩ := Option.bind_eq_some_iff.mp searched
    refine ih (keeps search middle entry List.mem_cons_self start first) ?_ others
    intro middle next other listed
    exact keeps middle next other (List.mem_cons_of_mem entry listed)

omit [DecidableEq α] in
theorem foldlM_extends {step : Search α → α → Option (Search α)}
    (each : ∀ {middle next entry}, step middle entry = some next → ∃ added, Extends middle next added)
    (searched : entries.foldlM step search = some after) : ∃ added, Extends search after added := by
  refine foldlM_invariant (fun middle => ∃ added, Extends search middle added) ⟨[], Extends.refl search⟩ ?_ searched
  rintro middle next entry _ ⟨first, earlier⟩ visits
  obtain ⟨second, later⟩ := each visits
  exact ⟨first ++ second, earlier.trans later⟩

theorem visit_extends (visits : visit children fuel search entry = some after) : ∃ added, Extends search after added := by
  induction fuel generalizing search after entry with
  | zero => cases visits
  | succ fuel ih =>
    rcases visit_cases visits with ⟨_, rfl⟩ | ⟨unmet, below, searched, rfl⟩
    · exact ⟨[], Extends.refl _⟩
    · obtain ⟨added, extended⟩ := foldlM_extends ih searched
      exact ⟨added ++ [entry], extended.around unmet⟩

/-- An entry that was searched has been met. -/
theorem visit_met (visits : visit children fuel search entry = some after) : entry ∈ after.visited := by
  obtain ⟨added, extended⟩ := visit_extends visits
  cases fuel with
  | zero => cases visits
  | succ fuel =>
    rcases visit_cases visits with ⟨met, rfl⟩ | ⟨_, below, searched, rfl⟩
    · exact met
    · obtain ⟨added, under⟩ := foldlM_extends visit_extends searched
      exact (under.visited entry).mpr (.inl List.mem_cons_self)

theorem foldlM_met (searched : entries.foldlM (visit children fuel) search = some after) :
    ∀ entry ∈ entries, entry ∈ after.visited := by
  induction entries generalizing search with
  | nil => simp
  | cons first rest ih =>
    obtain ⟨middle, visits, others⟩ := Option.bind_eq_some_iff.mp searched
    intro entry listed
    rcases List.mem_cons.mp listed with rfl | later
    · obtain ⟨added, extended⟩ := foldlM_extends visit_extends others
      exact (extended.visited entry).mpr (.inl (visit_met visits))
    · exact ih others entry later

/-! ## Entries that children do not lead out of -/

/-- A search of entries that their children do not lead out of meets none outside them. -/
theorem visit_within {within : List α} (closed : ∀ up ∈ within, children up ⊆ within) (listed : entry ∈ within)
    (before : search.visited ⊆ within) (visits : visit children fuel search entry = some after) :
    after.visited ⊆ within := by
  induction fuel generalizing search after entry with
  | zero => cases visits
  | succ fuel ih =>
    rcases visit_cases visits with ⟨_, rfl⟩ | ⟨_, below, searched, rfl⟩
    · exact before
    · have kept := foldlM_invariant (fun middle => middle.visited ⊆ within) (List.cons_subset.mpr ⟨listed, before⟩)
        (fun middle next child linked earlier visits => ih (closed entry listed linked) earlier visits) searched
      exact kept

/-- How many entries a search has not met yet. -/
def unmet (within : List α) (search : Search α) : Nat := (within.toFinset \ search.visited.toFinset).card

theorem Extends.unmet_le {within added : List α} (extended : Extends search after added) :
    unmet within after ≤ unmet within search := by
  apply Finset.card_le_card
  apply Finset.sdiff_subset_sdiff (Finset.Subset.refl _)
  intro entry met
  rw [List.mem_toFinset] at met ⊢
  exact (extended.visited entry).mpr (.inl met)

/-- Entering an entry leaves fewer to meet. -/
theorem unmet_enter {within : List α} (listed : entry ∈ within) (out : entry ∉ search.visited) :
    unmet within { search with visited := entry :: search.visited } < unmet within search := by
  simp only [unmet, List.toFinset_cons, Finset.sdiff_insert]
  apply Finset.card_erase_lt_of_mem
  simp [listed, out]

/-- When each entry of a list can be searched with what is left to meet before the first, all of them can. -/
theorem foldlM_ends {within : List α} (each : ∀ search, ∀ entry ∈ entries, unmet within search < fuel →
      ∃ after, visit children fuel search entry = some after)
    (enough : unmet within search < fuel) : ∃ after, entries.foldlM (visit children fuel) search = some after := by
  induction entries generalizing search with
  | nil => exact ⟨search, rfl⟩
  | cons entry rest ih =>
    obtain ⟨middle, visits⟩ := each search entry List.mem_cons_self enough
    obtain ⟨added, extended⟩ := visit_extends visits
    have rested : ∃ after, rest.foldlM (visit children fuel) middle = some after := by
      refine ih (fun search other listed => each search other (List.mem_cons_of_mem entry listed)) ?_
      exact lt_of_le_of_lt extended.unmet_le enough
    obtain ⟨after, others⟩ := rested
    exact ⟨after, by simp only [List.foldlM_cons, visits, Option.bind_eq_bind, Option.bind_some, others]⟩

/-- With more fuel than there are entries to meet a search ends. -/
theorem visit_ends {within : List α} (closed : ∀ up ∈ within, children up ⊆ within) (listed : entry ∈ within)
    (enough : unmet within search < fuel) : ∃ after, visit children fuel search entry = some after := by
  induction fuel generalizing search entry with
  | zero => omega
  | succ fuel ih =>
    rw [visit]
    split_ifs with met
    · exact ⟨search, rfl⟩
    · have fewer := unmet_enter listed met
      have enough : unmet within { search with visited := entry :: search.visited } < fuel := by omega
      obtain ⟨below, searched⟩ := foldlM_ends (fun search child linked => ih (closed entry listed linked)) enough
      exact ⟨{ below with order := below.order ++ [entry] }, by simp only [searched, Option.bind_eq_bind, Option.bind_some]; rfl⟩

/-! ## Children first -/

/-- Each entry of an order comes after its children. -/
def ChildrenFirst (children : α → List α) (order : List α) : Prop :=
  ∀ before entry after, order = before ++ entry :: after → children entry ⊆ before

omit [DecidableEq α] in
theorem ChildrenFirst.snoc {order : List α} (first : ChildrenFirst children order) (left : children entry ⊆ order) :
    ChildrenFirst children (order ++ [entry]) := by
  intro before other after split
  rcases List.eq_nil_or_concat' after with rfl | ⟨after, last, rfl⟩
  · obtain ⟨rfl, same⟩ := List.append_inj' split rfl
    obtain rfl := List.head_eq_of_cons_eq same
    exact left
  · rw [← List.cons_append, ← List.append_assoc] at split
    exact first before other after (List.append_inj' split rfl).1

/-- An entry that was entered and not left is above the one that is searched next. -/
def OpenAbove (children : α → List α) (search : Search α) (entry : α) : Prop :=
  ∀ met ∈ search.visited, met ∈ search.order ∨ Relation.TransGen (fun up child => child ∈ children up) met entry

omit [DecidableEq α] in
theorem OpenAbove.extends {added : List α} (above : OpenAbove children search entry) (extended : Extends search after added) :
    OpenAbove children after entry := by
  intro met listed
  rw [extended.order, List.mem_append]
  rcases (extended.visited met).mp listed with earlier | later
  · exact (above met earlier).imp_left .inl
  · exact .inl (.inr later)

omit [DecidableEq α] in
theorem OpenAbove.enter {child : α} (above : OpenAbove children search entry) (linked : child ∈ children entry) :
    OpenAbove children { search with visited := entry :: search.visited } child := by
  intro met listed
  rcases List.mem_cons.mp listed with rfl | earlier
  · exact .inr (.single linked)
  · exact (above met earlier).imp_right fun path => path.tail linked

/-- Where the edges run in no circle a search keeps children first. -/
theorem visit_childrenFirst (acyclic : ∀ entry, ¬ Relation.TransGen (fun up child => child ∈ children up) entry entry)
    (first : ChildrenFirst children search.order) (above : OpenAbove children search entry)
    (visits : visit children fuel search entry = some after) : ChildrenFirst children after.order := by
  induction fuel generalizing search after entry with
  | zero => cases visits
  | succ fuel ih =>
    rcases visit_cases visits with ⟨_, rfl⟩ | ⟨_, below, searched, rfl⟩
    · exact first
    · obtain ⟨added, extended⟩ := foldlM_extends visit_extends searched
      -- a child that is still open would be above itself
      have left : children entry ⊆ below.order := by
        intro child linked
        have opened := (above.enter linked).extends extended child (foldlM_met searched child linked)
        exact opened.resolve_right (acyclic child)
      refine ChildrenFirst.snoc ?_ left
      have entered : ChildrenFirst children search.order ∧ ∀ child ∈ children entry,
          OpenAbove children { search with visited := entry :: search.visited } child :=
        ⟨first, fun child linked => above.enter linked⟩
      have kept := foldlM_invariant
        (fun middle => ChildrenFirst children middle.order ∧ ∀ child ∈ children entry, OpenAbove children middle child)
        entered ?_ searched
      · exact kept.1
      · rintro middle next child linked ⟨earlier, opened⟩ visits
        obtain ⟨added, extended⟩ := visit_extends visits
        exact ⟨ih earlier (opened child linked) visits, fun other listed => (opened other listed).extends extended⟩

/-! ## The search of a list of entries -/

/-- Search each entry of a list in turn. -/
def all (children : α → List α) (fuel : Nat) (entries : List α) : Option (List α) :=
  (entries.foldlM (visit children fuel) {}).map (·.order)

/-- A search of entries that their children do not lead out of leaves each of them once. -/
theorem all_ends (closed : ∀ up ∈ entries, children up ⊆ entries) (enough : entries.length < fuel) :
    ∃ order, all children fuel entries = some order ∧ order.Nodup ∧ ∀ entry, entry ∈ order ↔ entry ∈ entries := by
  have few : unmet entries {} < fuel := by
    refine lt_of_le_of_lt ?_ enough
    exact (Finset.card_le_card Finset.sdiff_subset).trans (List.toFinset_card_le entries)
  obtain ⟨after, searched⟩ := foldlM_ends (fun search entry listed => visit_ends closed listed) few
  refine ⟨after.order, by simp only [all, searched, Option.map_some], ?_⟩
  obtain ⟨added, extended⟩ := foldlM_extends visit_extends searched
  have order : after.order = added := extended.order
  have visited : ∀ entry, entry ∈ after.visited ↔ entry ∈ added := by simpa using extended.visited
  rw [order]
  refine ⟨extended.distinct, fun entry => ⟨fun listed => ?_, fun listed => ?_⟩⟩
  · have within := foldlM_invariant (fun middle => middle.visited ⊆ entries) (List.nil_subset entries)
      (fun middle next entry listed earlier visits => visit_within closed listed earlier visits) searched
    exact within ((visited entry).mpr listed)
  · exact (visited entry).mp (foldlM_met searched entry listed)

theorem all_childrenFirst (acyclic : ∀ entry, ¬ Relation.TransGen (fun up child => child ∈ children up) entry entry)
    {order : List α} (searched : all children fuel entries = some order) : ChildrenFirst children order := by
  obtain ⟨after, searches, rfl⟩ := Option.map_eq_some_iff.mp searched
  have kept := foldlM_invariant
    (fun middle => ChildrenFirst children middle.order ∧ ∀ entry, OpenAbove children middle entry)
    ⟨by simp [ChildrenFirst], by simp [OpenAbove]⟩ ?_ searches
  · exact kept.1
  · rintro middle next entry _ ⟨earlier, opened⟩ visits
    obtain ⟨added, extended⟩ := visit_extends visits
    exact ⟨visit_childrenFirst acyclic earlier (opened entry) visits, fun other => (opened other).extends extended⟩

end Search

end Duroxide.Lib
