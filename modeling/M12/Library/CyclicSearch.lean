/-
This file is about searching the slots of a ring.

The search looks at one slot after another, wrapping from the last to the first,
and stops at the first slot with a property. What it finds is the slot with the
property at the least distance ahead of the start, and a search of the whole ring
finds nothing only when no slot has the property. As numbers, the slots are looked
at in order up to the last one, and then from zero on.

Searching again from the slot found, among the members of a set and past the slot
itself, goes round the ring: each step goes to the member next in order of distance
from the first one, so as many steps as there are members visit each of them once
and come back.
-/

import Mathlib

namespace CyclicSearch

/-- How far `slot` lies ahead of `start`. -/
def distance {n : Nat} (start slot : Fin n) : Nat := (slot - start).val

theorem distance_lt {n : Nat} (start slot : Fin n) : distance start slot < n :=
  (slot - start).isLt

variable {n : Nat} [NeZero n]

/-- The first slot with the property `accept` among `remaining` slots from `start` on. -/
def search (accept : Fin n → Prop) [DecidablePred accept] (start : Fin n) : Nat → Option (Fin n)
  | 0 => none
  | remaining + 1 =>
    if accept start then some start else search accept (start + 1) remaining

theorem distance_self (start : Fin n) : distance start start = 0 := by
  rw [distance, sub_self]
  rfl

/-- A step of the start brings every other slot one closer. -/
theorem distance_succ {start slot : Fin n} (different : slot ≠ start) :
    distance start slot = distance (start + 1) slot + 1 := by
  have apart : slot - start ≠ 0 := sub_ne_zero.mpr different
  have closer := Fin.val_sub_one_of_ne_zero apart
  have positive : (slot - start).val ≠ 0 := fun zero => apart (Fin.ext zero)
  rw [distance, distance, sub_add_eq_sub_sub, closer]
  omega

section Search

variable (accept : Fin n → Prop) [DecidablePred accept]

theorem search_some {start found : Fin n} {remaining : Nat}
    (result : search accept start remaining = some found) :
    accept found ∧ distance start found < remaining ∧
      ∀ slot, accept slot → distance start found ≤ distance start slot := by
  induction remaining generalizing start with
  | zero => exact absurd result (by simp [search])
  | succ remaining inductionHypothesis =>
    rw [search] at result
    split at result
    case isTrue accepted =>
      rw [← Option.some.inj result, distance_self]
      exact ⟨accepted, Nat.succ_pos _, fun _ _ => Nat.zero_le _⟩
    case isFalse rejected =>
      obtain ⟨accepted, near, least⟩ := inductionHypothesis result
      have ahead : ∀ slot, accept slot → slot ≠ start := by
        rintro slot acceptedSlot rfl
        exact rejected acceptedSlot
      refine ⟨accepted, ?_, fun slot acceptedSlot => ?_⟩
      · rw [distance_succ (ahead found accepted)]
        exact Nat.succ_lt_succ near
      · rw [distance_succ (ahead found accepted), distance_succ (ahead slot acceptedSlot)]
        exact Nat.succ_le_succ (least slot acceptedSlot)

theorem search_none {start : Fin n} {remaining : Nat}
    (result : search accept start remaining = none) {slot : Fin n}
    (near : distance start slot < remaining) : ¬ accept slot := by
  induction remaining generalizing start with
  | zero => exact absurd near (Nat.not_lt_zero _)
  | succ remaining inductionHypothesis =>
    rw [search] at result
    split at result
    case isTrue accepted => exact absurd result (by simp)
    case isFalse rejected =>
      by_cases same : slot = start
      · exact same ▸ rejected
      · rw [distance_succ same] at near
        exact inductionHypothesis result (Nat.lt_of_succ_lt_succ near)

/-- A search of the whole ring misses nothing. -/
theorem search_all_eq_none {start : Fin n} :
    search accept start n = none ↔ ∀ slot, ¬ accept slot := by
  constructor
  · intro result slot
    exact search_none accept result (distance_lt start slot)
  · intro rejected
    cases result : search accept start n with
    | none => rfl
    | some found => exact absurd (search_some accept result).1 (rejected found)

/-- Searches for equivalent properties find the same. -/
theorem search_congr {other : Fin n → Prop} [DecidablePred other]
    (same : ∀ slot, accept slot ↔ other slot) (start : Fin n) (remaining : Nat) :
    search accept start remaining = search other start remaining := by
  induction remaining generalizing start with
  | zero => rfl
  | succ remaining inductionHypothesis =>
    rw [search, search, inductionHypothesis]
    exact if_congr (same start) rfl rfl

end Search

/-! ### The ring as a list -/

section List

variable (accept : Fin n → Prop) [DecidablePred accept]

theorem val_succ {start : Fin n} (inside : start.val + 1 < n) : (start + 1).val = start.val + 1 :=
  Fin.val_add_one_of_lt' inside

theorem succ_last {start : Fin n} (last : start.val + 1 = n) : start + 1 = 0 := by
  refine Fin.ext ?_
  rw [Fin.val_add, Fin.val_one', Fin.val_zero]
  rw [Nat.add_mod_mod, last, Nat.mod_self]

/-- Up to the last slot the search goes through the numbers in order. -/
theorem search_ahead {test : Nat → Bool} (same : ∀ slot : Fin n, test slot.val = true ↔ accept slot)
    {start : Fin n} {remaining : Nat} (inside : start.val + remaining ≤ n) :
    (search accept start remaining).map Fin.val =
      (List.range' start.val remaining).find? test := by
  induction remaining generalizing start with
  | zero => rfl
  | succ remaining inductionHypothesis =>
    rw [search, List.range'_succ, List.find?_cons]
    by_cases here : accept start
    · rw [if_pos here, (same start).mpr here]
      rfl
    · rw [if_neg here, Bool.eq_false_iff.mpr fun tested => here ((same start).mp tested)]
      rcases Nat.eq_zero_or_pos remaining with rfl | more
      · rfl
      · have next := val_succ (show start.val + 1 < n by omega)
        rw [inductionHypothesis (by omega), next]

/-- Behind the last slot the search goes on at the first. -/
theorem search_round {start : Fin n} {ahead : Nat} (reaches : start.val + ahead = n)
    (remaining : Nat) :
    search accept start (ahead + remaining) =
      (search accept start ahead).or (search accept 0 remaining) := by
  induction ahead generalizing start with
  | zero => exact absurd reaches (Nat.ne_of_lt start.isLt)
  | succ ahead inductionHypothesis =>
    rw [Nat.add_right_comm, search, search]
    by_cases here : accept start
    · rw [if_pos here, if_pos here, Option.some_or]
    · rw [if_neg here, if_neg here]
      rcases Nat.eq_zero_or_pos ahead with rfl | more
      · rw [succ_last reaches, Nat.zero_add, search, Option.none_or]
      · exact inductionHypothesis (by rw [val_succ (by omega)]; omega)

/-- A search of the whole ring from behind a slot goes through the numbers above it, then through
the ones up to it. -/
theorem search_from_next {test : Nat → Bool}
    (same : ∀ slot : Fin n, test slot.val = true ↔ accept slot) (slot : Fin n) :
    (search accept (slot + 1) n).map Fin.val =
      (List.range' (slot.val + 1) (n - (slot.val + 1)) ++
        List.range' 0 (slot.val + 1)).find? test := by
  have slotLt := slot.isLt
  rw [List.find?_append]
  rcases Nat.lt_or_ge (slot.val + 1) n with inside | last
  · have next := val_succ inside
    have parts : n - (slot.val + 1) + (slot.val + 1) = n := by omega
    have round := search_round accept (show (slot + 1).val + (n - (slot.val + 1)) = n by omega)
      (slot.val + 1)
    have above := search_ahead accept same
      (show (slot + 1).val + (n - (slot.val + 1)) ≤ n by omega)
    have below := search_ahead accept same
      (show (0 : Fin n).val + (slot.val + 1) ≤ n by rw [Fin.val_zero]; omega)
    rw [parts] at round
    rw [next] at above
    rw [Fin.val_zero] at below
    rw [round, Option.map_or, above, below]
  · have full : slot.val + 1 = n := by omega
    have all := search_ahead accept same (show (0 : Fin n).val + n ≤ n by rw [Fin.val_zero]; omega)
    rw [Fin.val_zero] at all
    rw [succ_last full, all, full, Nat.sub_self, List.range'_zero, List.find?_nil, Option.none_or]

end List

/-! ### Going round -/

theorem distance_eq_zero {start slot : Fin n} : distance start slot = 0 ↔ slot = start := by
  constructor
  · intro zero
    exact sub_eq_zero.mp (Fin.ext zero)
  · rintro rfl
    exact distance_self slot

theorem distance_injective {start first second : Fin n}
    (same : distance start first = distance start second) : first = second :=
  sub_left_inj.mp (Fin.ext same)

/-- The way from one slot to another, as both are seen from a third. -/
theorem distance_eq_sub (start slot other : Fin n) :
    distance slot other = ((other - start) - (slot - start)).val := by
  rw [distance, sub_sub_sub_cancel_right]

/-- A slot further ahead is reached by going on. -/
theorem distance_of_lt {start slot other : Fin n}
    (ahead : distance start slot < distance start other) :
    distance slot other = distance start other - distance start slot := by
  rw [distance_eq_sub start]
  exact Fin.sub_val_of_le (Nat.le_of_lt ahead)

/-- A slot less far ahead is reached by going round. -/
theorem distance_of_gt {start slot other : Fin n}
    (behind : distance start other < distance start slot) :
    distance slot other = n + distance start other - distance start slot := by
  rw [distance_eq_sub start]
  exact Fin.coe_sub_iff_lt.mpr behind

/-- The next member after `slot`. -/
def successor (members : Finset (Fin n)) (slot : Fin n) : Option (Fin n) :=
  search (fun other => other ∈ members ∧ other ≠ slot) (slot + 1) n

/-- How many members come before `slot` on the way from `start`. -/
def rank (members : Finset (Fin n)) (start slot : Fin n) : Nat :=
  (members.filter fun other => distance start other < distance start slot).card

section Round

variable {members : Finset (Fin n)} {start slot next : Fin n}

/-- The next member is the nearest one ahead. -/
theorem successor_some (found : successor members slot = some next) :
    next ∈ members ∧ next ≠ slot ∧
      ∀ other ∈ members, other ≠ slot → distance slot next ≤ distance slot other := by
  obtain ⟨⟨member, different⟩, -, least⟩ := search_some _ found
  refine ⟨member, different, fun other otherMember otherDifferent => ?_⟩
  rw [distance_succ different, distance_succ otherDifferent]
  exact Nat.succ_le_succ (least other ⟨otherMember, otherDifferent⟩)

theorem rank_start : rank members start start = 0 := by
  rw [rank, distance_self]
  exact Finset.card_eq_zero.mpr (Finset.filter_false_of_mem fun _ _ => Nat.not_lt_zero _)

omit [NeZero n] in
theorem rank_lt (member : slot ∈ members) : rank members start slot < members.card := by
  refine Finset.card_lt_card (Finset.filter_ssubset.mpr ⟨slot, member, ?_⟩)
  exact Nat.lt_irrefl _

omit [NeZero n] in
theorem rank_lt_rank (member : slot ∈ members)
    (ahead : distance start slot < distance start next) :
    rank members start slot < rank members start next := by
  refine Finset.card_lt_card (Finset.ssubset_iff_of_subset ?_ |>.mpr ⟨slot, ?_, ?_⟩)
  · intro other here
    rw [Finset.mem_filter] at here ⊢
    exact ⟨here.1, here.2.trans ahead⟩
  · exact Finset.mem_filter.mpr ⟨member, ahead⟩
  · exact fun here => Nat.lt_irrefl _ (Finset.mem_filter.mp here).2

theorem rank_injective (member : slot ∈ members) (nextMember : next ∈ members)
    (same : rank members start slot = rank members start next) : slot = next := by
  rcases Nat.lt_trichotomy (distance start slot) (distance start next) with less | equal | greater
  · exact absurd same (Nat.ne_of_lt (rank_lt_rank member less))
  · exact distance_injective equal
  · exact absurd same (Nat.ne_of_gt (rank_lt_rank nextMember greater))

/-- While a member lies further ahead, the next member has the next rank. -/
theorem rank_successor (member : slot ∈ members) (found : successor members slot = some next)
    {further : Fin n} (furtherMember : further ∈ members)
    (ahead : distance start slot < distance start further) :
    rank members start next = rank members start slot + 1 := by
  obtain ⟨nextMember, different, nearest⟩ := successor_some found
  have furtherLt := distance_lt start further
  have nextAhead : distance start slot < distance start next := by
    by_contra behind
    have less : distance start next < distance start slot :=
      Nat.lt_of_le_of_ne (Nat.le_of_not_lt behind) fun same => different (distance_injective same)
    have near := nearest further furtherMember fun same => Nat.ne_of_gt ahead (by rw [same])
    rw [distance_of_gt less, distance_of_lt ahead] at near
    omega
  have before : (members.filter fun other => distance start other < distance start next) =
      insert slot (members.filter fun other => distance start other < distance start slot) := by
    ext other
    rw [Finset.mem_insert, Finset.mem_filter, Finset.mem_filter]
    constructor
    · rintro ⟨otherMember, less⟩
      by_cases same : other = slot
      · exact Or.inl same
      · refine Or.inr ⟨otherMember, ?_⟩
        by_contra notBefore
        have otherAhead : distance start slot < distance start other :=
          Nat.lt_of_le_of_ne (Nat.le_of_not_lt notBefore) fun equal =>
            same (distance_injective equal.symm)
        have near := nearest other otherMember same
        rw [distance_of_lt nextAhead, distance_of_lt otherAhead] at near
        omega
    · rintro (rfl | ⟨otherMember, less⟩)
      · exact ⟨member, nextAhead⟩
      · exact ⟨otherMember, less.trans nextAhead⟩
  rw [rank, before, Finset.card_insert_of_notMem]
  · rfl
  · exact fun here => Nat.lt_irrefl _ (Finset.mem_filter.mp here).2

/-- After the last member comes the first. -/
theorem successor_last (startMember : start ∈ members)
    (found : successor members slot = some next)
    (last : ∀ other ∈ members, distance start other ≤ distance start slot) :
    next = start := by
  obtain ⟨nextMember, different, nearest⟩ := successor_some found
  have nextBehind : distance start next < distance start slot :=
    Nat.lt_of_le_of_ne (last next nextMember) fun same => different (distance_injective same)
  have startBehind : distance start start < distance start slot := by
    rw [distance_self]
    exact Nat.zero_lt_of_lt nextBehind
  have notStart : start ≠ slot := fun same => Nat.ne_of_lt startBehind (by rw [← same])
  have near := nearest start startMember notStart
  have slotLt := distance_lt start slot
  rw [distance_of_gt nextBehind, distance_of_gt startBehind, distance_self] at near
  exact distance_eq_zero.mp (by omega)

/-- Before the last rank some member lies further ahead. -/
theorem exists_further (member : slot ∈ members)
    (early : rank members start slot + 1 < members.card) :
    ∃ further ∈ members, distance start slot < distance start further := by
  by_contra none
  push Not at none
  have others : (members.filter fun other => distance start other < distance start slot) =
      members.erase slot := by
    ext other
    rw [Finset.mem_filter, Finset.mem_erase]
    constructor
    · rintro ⟨otherMember, less⟩
      exact ⟨fun same => Nat.ne_of_lt less (by rw [same]), otherMember⟩
    · rintro ⟨different, otherMember⟩
      exact ⟨otherMember, Nat.lt_of_le_of_ne (none other otherMember) fun same =>
        different (distance_injective same)⟩
  rw [rank, others, Finset.card_erase_of_mem member] at early
  omega

/-- On the way round, the member reached after `k` steps has rank `k`. -/
theorem rank_visits {visit : Nat → Fin n} (startMember : visit 0 ∈ members)
    (steps : ∀ k < members.card, successor members (visit k) = some (visit (k + 1))) {k : Nat}
    (inside : k < members.card) :
    visit k ∈ members ∧ rank members (visit 0) (visit k) = k := by
  induction k with
  | zero => exact ⟨startMember, rank_start⟩
  | succ k inductionHypothesis =>
    obtain ⟨member, place⟩ := inductionHypothesis (Nat.lt_of_succ_lt inside)
    have found := steps k (Nat.lt_of_succ_lt inside)
    obtain ⟨further, furtherMember, ahead⟩ := exists_further member (place.symm ▸ inside)
    refine ⟨(successor_some found).1, ?_⟩
    rw [rank_successor member found furtherMember ahead, place]

/-- As many steps as there are members come back to the first. -/
theorem visits_return {visit : Nat → Fin n} (startMember : visit 0 ∈ members)
    (steps : ∀ k < members.card, successor members (visit k) = some (visit (k + 1))) :
    visit members.card = visit 0 := by
  have positive := Finset.card_pos.mpr ⟨visit 0, startMember⟩
  obtain ⟨final, total⟩ := Nat.exists_eq_succ_of_ne_zero (Nat.ne_of_gt positive)
  have inside : final < members.card := total ▸ Nat.lt_succ_self final
  obtain ⟨member, place⟩ := rank_visits startMember steps inside
  rw [total]
  refine successor_last startMember (steps final inside) fun other otherMember => ?_
  by_contra further
  have above := rank_lt_rank member (Nat.lt_of_not_le further)
  have below : rank members (visit 0) other < members.card := rank_lt otherMember
  omega

/-- And they visit each member exactly once. -/
theorem visits_once {visit : Nat → Fin n} (startMember : visit 0 ∈ members)
    (steps : ∀ k < members.card, successor members (visit k) = some (visit (k + 1)))
    (member : slot ∈ members) : ∃! k, k < members.card ∧ visit (k + 1) = slot := by
  have back := visits_return startMember steps
  have positive := Finset.card_pos.mpr ⟨visit 0, startMember⟩
  -- A step but the last reaches the rank of its number, and the last one reaches rank 0.
  have reached : ∀ k < members.card, visit (k + 1) = slot →
      k + 1 = if rank members (visit 0) slot = 0 then members.card
        else rank members (visit 0) slot := by
    intro k inside here
    by_cases final : k + 1 = members.card
    · rw [final, back] at here
      rw [← here, rank_start, if_pos rfl, final]
    · obtain ⟨-, place⟩ := rank_visits startMember steps (show k + 1 < members.card by omega)
      rw [here] at place
      rw [place, if_neg (Nat.succ_ne_zero k)]
  by_cases first : rank members (visit 0) slot = 0
  · have same : visit 0 = slot := rank_injective startMember member (rank_start.trans first.symm)
    refine ⟨members.card - 1, ⟨by omega, ?_⟩, fun k here => ?_⟩
    · rw [Nat.sub_add_cancel positive, back, same]
    · have place := reached k here.1 here.2
      rw [if_pos first] at place
      omega
  · have inside : rank members (visit 0) slot < members.card := rank_lt member
    obtain ⟨visited, place⟩ := rank_visits startMember steps inside
    refine ⟨rank members (visit 0) slot - 1, ⟨by omega, ?_⟩, fun k here => ?_⟩
    · rw [Nat.sub_add_cancel (Nat.pos_of_ne_zero first)]
      exact rank_injective visited member place
    · have number := reached k here.1 here.2
      rw [if_neg first] at number
      omega

end Round

end CyclicSearch
