/-
This file says what `map_page` and `setup_kernel_mappings` do to the tree of page
tables, whether or not they get the pages they ask for.

Both make sure that a PDPT and a PD exist and then write one leaf. A page is linked
as soon as it has been taken, so a call that gives up half-way leaves a larger tree
and nothing else: each page taken from the allocator is one new node. `Grows` is
that relation between the states before and after, with the set of new nodes.
-/

import M12.OwnedTables

namespace M12

open ByteMemory

/-! ### Growing -/

/-- The tree of `next` is that of `s` with the nodes of `fresh` added, for each of which one page
was taken. -/
structure Grows (s next : PagingState) (fresh : Finset Node) : Prop where
  root : next.kernelPml4 = s.kernelPml4
  cr3 : next.cr3 = s.cr3
  live : ∀ n, Live next.ram next.kernelPml4 n ↔ Live s.ram s.kernelPml4 n ∨ n ∈ fresh
  pages : ∀ n, Live s.ram s.kernelPml4 n →
    nodePage next.ram next.kernelPml4 n = nodePage s.ram s.kernelPml4 n
  new : ∀ n ∈ fresh, ¬ Live s.ram s.kernelPml4 n
  taken : (pool next.toMemoryState).free.card + fresh.card = (pool s.toMemoryState).free.card

theorem Grows.refl (s : PagingState) : Grows s s ∅ where
  root := rfl
  cr3 := rfl
  live := fun n => ⟨Or.inl, fun cases => cases.resolve_right (Finset.notMem_empty n)⟩
  pages := fun _ _ => rfl
  new := fun n member => absurd member (Finset.notMem_empty n)
  taken := rfl

theorem Grows.trans {first second third : PagingState} {early late : Finset Node}
    (before : Grows first second early) (after : Grows second third late) :
    Grows first third (early ∪ late) where
  root := after.root.trans before.root
  cr3 := after.cr3.trans before.cr3
  live := by
    intro n
    rw [after.live, before.live, Finset.mem_union, or_assoc]
  pages := by
    intro n live
    rw [after.pages n ((before.live n).mpr (Or.inl live)), before.pages n live]
  new := by
    intro n member live
    rcases Finset.mem_union.mp member with old | new
    · exact before.new n old live
    · exact after.new n new ((before.live n).mpr (Or.inl live))
  taken := by
    have apart : Disjoint early late := Finset.disjoint_left.mpr fun n old new =>
      after.new n new ((before.live n).mpr (Or.inr old))
    have taken := before.taken
    rw [← after.taken] at taken
    rw [Finset.card_union_of_disjoint apart, ← taken]
    omega

/-! ### One level -/

theorem ensureTable_cr3 (s : PagingState) (table : BitVec 64) (index : Nat) (flags : BitVec 64) :
    (ensureTable s table index flags).1.cr3 = s.cr3 := by
  rw [ensureTable]
  split
  · rfl
  · simp only
    split
    · rfl
    · rfl

/-- A level that is there costs nothing, one that is absent costs a page, and without a page
nothing happens. -/
theorem ensureTable_grows {s : PagingState} {held : Finset (BitVec 64)}
    (tables : OwnedTables s held) {parent child : Node} {index : Nat}
    (below : Below parent index child) (live : Live s.ram s.kernelPml4 parent)
    (inside : index < 512) {flags : BitVec 64} (small : flags.toNat < 128)
    (present : hasFlag flags pagePresent = true) :
    (∃ next fresh, ensureTable s (nodePage s.ram s.kernelPml4 parent) index flags = (next, true) ∧
        OwnedTables next held ∧ Extends s next ∧ Grows s next fresh ∧
        Live next.ram next.kernelPml4 child) ∨
      ensureTable s (nodePage s.ram s.kernelPml4 parent) index flags = (s, false) := by
  cases absent : hasFlag (nodeEntry s.ram s.kernelPml4 parent index) pagePresent with
  | true =>
    refine Or.inl ⟨s, ∅, ?_, tables, Extends.refl s, Grows.refl s,
      (live_below below _ _).mpr ⟨live, inside, absent⟩⟩
    rw [ensureTable]
    exact if_pos absent
  | false =>
    have dead : ¬ Live s.ram s.kernelPml4 child := by
      intro liveChild
      rw [((live_below below _ _).mp liveChild).2.2] at absent
      exact Bool.noConfusion absent
    have cr3 := ensureTable_cr3 s (nodePage s.ram s.kernelPml4 parent) index flags
    rcases ensureTable_owned tables below live inside small present with
      ⟨next, result, tablesNext, grown, liveNext⟩ | failed
    · refine Or.inl ⟨next, {child}, result, tablesNext, grown, ?_,
        (liveNext child).mpr (Or.inr rfl)⟩
      rcases ensureTable_absent tables.managed (tables.owned parent live) inside absent flags with
        ⟨i, least, -, free⟩ | ⟨-, failed⟩
      · rw [result] at cr3 free
        refine ⟨grown.root, cr3, fun n => ?_, grown.pages, fun n member => ?_, ?_⟩
        · rw [liveNext, Finset.mem_singleton]
        · rw [Finset.mem_singleton.mp member]
          exact dead
        · have positive := Finset.card_pos.mpr ⟨i, least.1⟩
          rw [free, Finset.card_erase_of_mem least.1, Finset.card_singleton]
          omega
      · rw [result, Prod.mk.injEq] at failed
        exact absurd failed.2 Bool.noConfusion
    · exact Or.inr failed

/-- What a level that has been made sure of leaves behind. -/
theorem ensureTable_made {s next : PagingState} {held : Finset (BitVec 64)}
    (tables : OwnedTables s held) {parent child : Node} {index : Nat}
    (below : Below parent index child) (live : Live s.ram s.kernelPml4 parent)
    (inside : index < 512) {flags : BitVec 64} (small : flags.toNat < 128)
    (present : hasFlag flags pagePresent = true)
    (result : ensureTable s (nodePage s.ram s.kernelPml4 parent) index flags = (next, true)) :
    OwnedTables next held ∧ Extends s next ∧ Live next.ram next.kernelPml4 child ∧
      ∃ fresh, Grows s next fresh := by
  rcases ensureTable_grows tables below live inside small present with
    ⟨grown, fresh, resultGrown, tablesNext, extended, grows, liveChild⟩ | failed
  · obtain rfl : next = grown := congrArg Prod.fst (result.symm.trans resultGrown)
    exact ⟨tablesNext, extended, liveChild, fresh, grows⟩
  · rw [result, Prod.mk.injEq] at failed
    exact absurd failed.2 Bool.noConfusion

/-! ### Two levels and a leaf -/

/-- What the two functions have in common: make sure that the PDPT and the PD of a region exist,
and write the region's leaf. -/
def ensureLeaf (s : PagingState) (root : BitVec 64) (i j k : Nat) (flags value : BitVec 64) :
    PagingState × Bool :=
  match ensureTable s root i flags with
  | (s, false) => (s, false)
  | (s, true) =>
    let pdpt := tableOf (WordTable.read s.ram root i)
    match ensureTable s pdpt j flags with
    | (s, false) => (s, false)
    | (s, true) => (writeEntry s (tableOf (WordTable.read s.ram pdpt j)) k value, true)

/-- Writing a leaf adds no node. -/
theorem leaf_grows {s : PagingState} {held : Finset (BitVec 64)} (tables : OwnedTables s held)
    {a b c : Nat} (live : Live s.ram s.kernelPml4 (.pd a b)) (inside : c < 512)
    (value : BitVec 64) :
    Grows s (writeEntry s (nodePage s.ram s.kernelPml4 (.pd a b)) c value) ∅ := by
  have changes := changesOnly_write tables live inside value
  refine ⟨rfl, rfl, fun n => ?_, fun n liveN => nodePage_writeLeaf changes liveN,
    fun n member => absurd member (Finset.notMem_empty n), ?_⟩
  · rw [or_iff_left (Finset.notMem_empty n)]
    exact live_writeLeaf changes n
  · rw [Finset.card_empty, Nat.add_zero]
    exact congrArg (fun pool => pool.free.card)
      (pool_congr tables.managed (write_off_bitmap tables live inside value))

/-- Both levels are made sure of and the leaf is written, or one of them is the last thing tried. -/
theorem ensureLeaf_cases {s : PagingState} {held : Finset (BitVec 64)} (tables : OwnedTables s held)
    {i j : Nat} (iInside : i < 512) (jInside : j < 512) (k : Nat) {flags : BitVec 64}
    (small : flags.toNat < 128) (present : hasFlag flags pagePresent = true) (value : BitVec 64) :
    (∃ first second,
        ensureTable s (nodePage s.ram s.kernelPml4 .pml4) i flags = (first, true) ∧
        ensureTable first (nodePage first.ram first.kernelPml4 (.pdpt i)) j flags =
          (second, true) ∧
        ensureLeaf s s.kernelPml4 i j k flags value =
          (writeEntry second (nodePage second.ram second.kernelPml4 (.pd i j)) k value, true)) ∨
      (∃ first, ensureTable s (nodePage s.ram s.kernelPml4 .pml4) i flags = (first, true) ∧
        ensureLeaf s s.kernelPml4 i j k flags value = (first, false)) ∨
      ensureLeaf s s.kernelPml4 i j k flags value = (s, false) := by
  rw [nodePage, ensureLeaf]
  rcases ensureTable_grows tables (Below.pdpt i) trivial iInside small present with
    ⟨first, _, result, tablesFirst, -, growsFirst, livePdpt⟩ | failed
  · rw [nodePage] at result
    have pdpt : tableOf (WordTable.read first.ram s.kernelPml4 i) =
        nodePage first.ram first.kernelPml4 (.pdpt i) := by
      rw [growsFirst.root]
      rfl
    rw [result]
    simp only
    rw [pdpt]
    rcases ensureTable_grows tablesFirst (Below.pd i j) livePdpt jInside small present with
      ⟨second, _, resultSecond, -, -, growsSecond, -⟩ | failed
    · have pd : tableOf (WordTable.read second.ram (nodePage first.ram first.kernelPml4 (.pdpt i))
          j) = nodePage second.ram second.kernelPml4 (.pd i j) := by
        rw [← growsSecond.pages _ livePdpt]
        rfl
      rw [resultSecond]
      simp only
      rw [pd]
      exact Or.inl ⟨first, second, rfl, resultSecond, rfl⟩
    · rw [failed]
      exact Or.inr (Or.inl ⟨first, rfl, rfl⟩)
  · rw [nodePage] at failed
    rw [failed]
    exact Or.inr (Or.inr rfl)

/-- The leaf is written and no other, or the call gives up with every leaf as it was; in both
cases the tree has only grown. -/
theorem ensureLeaf_grows {s : PagingState} {held : Finset (BitVec 64)}
    (tables : OwnedTables s held) {i j k : Nat} (iInside : i < 512) (jInside : j < 512)
    (kInside : k < 512) {flags value : BitVec 64} (small : flags.toNat < 128)
    (present : hasFlag flags pagePresent = true) (huge : hasFlag value pageHuge = true) :
    ∃ next fresh, OwnedTables next held ∧ Grows s next fresh ∧
      ((ensureLeaf s s.kernelPml4 i j k flags value = (next, true) ∧ ∀ a b c, c < 512 →
          leafEntry next.ram next.kernelPml4 a b c =
            if a = i ∧ b = j ∧ c = k then value else leafEntry s.ram s.kernelPml4 a b c) ∨
        (ensureLeaf s s.kernelPml4 i j k flags value = (next, false) ∧ Extends s next)) := by
  rcases ensureLeaf_cases tables iInside jInside k small present value with
    ⟨first, second, madeFirst, madeSecond, result⟩ | ⟨first, madeFirst, result⟩ | result
  · obtain ⟨tablesFirst, extendsFirst, livePdpt, _, growsFirst⟩ :=
      ensureTable_made tables (Below.pdpt i) trivial iInside small present madeFirst
    obtain ⟨tablesSecond, extendsSecond, livePd, _, growsSecond⟩ :=
      ensureTable_made tablesFirst (Below.pd i j) livePdpt jInside small present madeSecond
    obtain ⟨tablesLast, leaves⟩ := leaf_owned tablesSecond livePd kInside huge
    have extended := extendsFirst.trans extendsSecond
    refine ⟨_, _, tablesLast, (growsFirst.trans growsSecond).trans
      (leaf_grows tablesSecond livePd kInside value), Or.inl ⟨result, fun a b c inside => ?_⟩⟩
    rw [← extended.leaves a b c inside]
    exact leaves a b c inside
  · obtain ⟨tablesFirst, extendsFirst, -, fresh, growsFirst⟩ :=
      ensureTable_made tables (Below.pdpt i) trivial iInside small present madeFirst
    exact ⟨first, fresh, tablesFirst, growsFirst, Or.inr ⟨result, extendsFirst⟩⟩
  · exact ⟨s, ∅, tables, Grows.refl s, Or.inr ⟨result, Extends.refl s⟩⟩

/-- The tables that are missing on the way to a leaf, each of which costs a page. -/
def missingTables (s : PagingState) (i j : Nat) : Nat :=
  if hasFlag (WordTable.read s.ram s.kernelPml4 i) pagePresent then
    if hasFlag (WordTable.read s.ram (tableOf (WordTable.read s.ram s.kernelPml4 i)) j)
        pagePresent then 0
    else 1
  else 2

theorem missingTables_le_two (s : PagingState) (i j : Nat) : missingTables s i j ≤ 2 := by
  rw [missingTables]
  split_ifs
  · exact Nat.zero_le 2
  · exact Nat.le_succ 1
  · exact Nat.le_refl 2

/-- A level succeeds if it is there or a page is free. -/
theorem ensureTable_succeeds {s : PagingState} (managed : Managed s.toMemoryState)
    {table : BitVec 64} (place : TablePage s.toMemoryState table) {index : Nat}
    (inside : index < 512) (flags : BitVec 64) :
    (ensureTable s table index flags).2 = true ↔
      (if hasFlag (WordTable.read s.ram table index) pagePresent then 0 else 1) ≤
        (pool s.toMemoryState).free.card := by
  cases present : hasFlag (WordTable.read s.ram table index) pagePresent with
  | true =>
    rw [ensureTable, if_pos present, if_pos rfl]
    exact iff_of_true rfl (Nat.zero_le _)
  | false =>
    rw [if_neg Bool.false_ne_true]
    rcases ensureTable_absent managed place inside present flags with
      ⟨i, least, succeeds, -⟩ | ⟨exhausted, failed⟩
    · exact iff_of_true succeeds (Finset.card_pos.mpr ⟨i, least.1⟩)
    · rw [failed, exhausted, Finset.card_empty]
      exact iff_of_false Bool.false_ne_true (by decide)

/-- Both levels are there in the end exactly if there are as many free pages as tables missing. -/
theorem ensureLeaf_succeeds_iff {s : PagingState} {held : Finset (BitVec 64)}
    (tables : OwnedTables s held) {i j : Nat} (iInside : i < 512) (jInside : j < 512) (k : Nat)
    {flags : BitVec 64} (small : flags.toNat < 128) (present : hasFlag flags pagePresent = true)
    (value : BitVec 64) :
    (ensureLeaf s s.kernelPml4 i j k flags value).2 = true ↔
      missingTables s i j ≤ (pool s.toMemoryState).free.card := by
  have verdict (first : PagingState) (result : ensureTable s s.kernelPml4 i flags = (first, true)) :
      (ensureLeaf s s.kernelPml4 i j k flags value).2 =
        (ensureTable first (tableOf (WordTable.read first.ram s.kernelPml4 i)) j flags).2 := by
    rw [ensureLeaf, result]
    simp only
    generalize ensureTable first _ j flags = last
    obtain ⟨second, made⟩ := last
    cases made with
    | false => rfl
    | true => rfl
  have root : TablePage s.toMemoryState s.kernelPml4 := tables.owned .pml4 trivial
  cases top : hasFlag (WordTable.read s.ram s.kernelPml4 i) pagePresent with
  | true =>
    have livePdpt : Live s.ram s.kernelPml4 (.pdpt i) := ⟨iInside, top⟩
    rw [verdict s (by rw [ensureTable, if_pos top]), missingTables, if_pos top]
    exact ensureTable_succeeds tables.managed (tables.owned _ livePdpt) jInside flags
  | false =>
    rw [missingTables, if_neg (by rw [top]; exact Bool.false_ne_true)]
    rcases ensureTable_owned tables (Below.pdpt i) trivial iInside small present with
      ⟨first, result, tablesFirst, grown, live⟩ | failed
    · rw [nodePage] at result
      have livePdpt : Live first.ram first.kernelPml4 (.pdpt i) := (live _).mpr (Or.inr rfl)
      -- the new PDPT is empty, since the tree got no other node
      have absent : hasFlag (WordTable.read first.ram
          (nodePage first.ram first.kernelPml4 (.pdpt i)) j) pagePresent = false := by
        rw [← Bool.not_eq_true]
        intro below
        have livePd : Live first.ram first.kernelPml4 (.pd i j) := ⟨livePdpt, jInside, below⟩
        rcases (live _).mp livePd with old | new
        · exact Bool.false_ne_true (top.symm.trans old.1.2)
        · exact Node.noConfusion new
      have place := ensureTable_succeeds tablesFirst.managed (tablesFirst.owned _ livePdpt) jInside
        flags
      rw [if_neg (by rw [absent]; exact Bool.false_ne_true)] at place
      have pdpt : tableOf (WordTable.read first.ram s.kernelPml4 i) =
          nodePage first.ram first.kernelPml4 (.pdpt i) := by
        rw [grown.root]
        rfl
      rw [verdict first result, pdpt, place]
      rcases ensureTable_absent tables.managed root iInside top flags with
        ⟨page, least, -, free⟩ | ⟨-, failed⟩
      · have positive := Finset.card_pos.mpr ⟨page, least.1⟩
        rw [result] at free
        rw [free, Finset.card_erase_of_mem least.1]
        omega
      · rw [result, Prod.mk.injEq] at failed
        exact absurd failed.2 Bool.noConfusion
    · rw [nodePage] at failed
      rcases ensureTable_absent tables.managed root iInside top flags with
        ⟨page, -, succeeds, -⟩ | ⟨exhausted, -⟩
      · rw [failed] at succeeds
        exact absurd succeeds Bool.false_ne_true
      · rw [ensureLeaf, failed, exhausted, Finset.card_empty]
        exact iff_of_false Bool.false_ne_true (by decide)

/-! ### The two functions -/

theorem ensureTable_root (s : PagingState) (table : BitVec 64) (index : Nat) (flags : BitVec 64) :
    (ensureTable s table index flags).1.kernelPml4 = s.kernelPml4 := by
  rw [ensureTable]
  split
  · rfl
  · simp only
    split
    · rfl
    · rfl

theorem setupKernelMappings_eq (s : PagingState) (pml4 : BitVec 64) :
    setupKernelMappings s pml4 = ensureLeaf s pml4 511 510 0 3#64 0x183#64 := by
  have top : pml4Index kernelVirtualBase = 511 := by decide
  have middle : pdptIndex (kernelVirtualBase + 0#64) = 510 := by decide
  have low : pdIndex (kernelVirtualBase + 0#64) = 0 := by decide
  have link : pagePresent ||| pageWritable = 3#64 := by decide
  have leaf : 0#64 ||| pagePresent ||| pageWritable ||| pageHuge ||| pageGlobal = 0x183#64 := by
    decide
  simp only [setupKernelMappings, top, middle, low, link, leaf]
  rfl

theorem mapPage_eq {s : PagingState} (started : s.kernelPml4 ≠ 0#64)
    (virtualAddr physicalAddr flags : BitVec 64) :
    mapPage s virtualAddr physicalAddr flags =
      ensureLeaf s s.kernelPml4 (pml4Index virtualAddr) (pdptIndex virtualAddr)
        (pdIndex virtualAddr) 7#64 (physicalAddr ||| flags ||| pageHuge) := by
  have link : pagePresent ||| pageWritable ||| pageUser = 7#64 := by decide
  have root := ensureTable_root s s.kernelPml4 (pml4Index virtualAddr) 7#64
  rw [mapPage, if_neg started, ensureLeaf]
  simp only [link]
  generalize ensureTable s s.kernelPml4 (pml4Index virtualAddr) 7#64 = result at root ⊢
  obtain ⟨next, linked⟩ := result
  cases linked with
  | false => rfl
  | true =>
    rewrite [← root]
    rfl

theorem OwnedTables.root_ne_zero {s : PagingState} {held : Finset (BitVec 64)}
    (tables : OwnedTables s held) : s.kernelPml4 ≠ 0#64 := by
  have place := toNat_tablePage tables.managed (tables.owned .pml4 trivial)
  rintro zero
  rw [nodePage, zero, BitVec.toNat_ofNat] at place
  omega

/-- `map_page` writes the leaf of its region and no other, or gives up with every leaf as it
was. -/
theorem mapPage_grows {s : PagingState} {held : Finset (BitVec 64)} (tables : OwnedTables s held)
    (virtualAddr physicalAddr flags : BitVec 64) :
    ∃ next fresh, OwnedTables next held ∧ Grows s next fresh ∧
      ((mapPage s virtualAddr physicalAddr flags = (next, true) ∧ ∀ i j k, k < 512 →
          leafEntry next.ram next.kernelPml4 i j k =
            if i = pml4Index virtualAddr ∧ j = pdptIndex virtualAddr ∧ k = pdIndex virtualAddr then
              physicalAddr ||| flags ||| pageHuge
            else leafEntry s.ram s.kernelPml4 i j k) ∨
        (mapPage s virtualAddr physicalAddr flags = (next, false) ∧ Extends s next)) := by
  rw [mapPage_eq tables.root_ne_zero]
  exact ensureLeaf_grows tables (pml4Index_lt virtualAddr) (pdptIndex_lt virtualAddr)
    (pdIndex_lt virtualAddr) (by decide) (by decide) (hasFlag_or_huge _)

/-- `map_page` succeeds exactly if there are as many free pages as tables missing. -/
theorem mapPage_succeeds_iff {s : PagingState} {held : Finset (BitVec 64)}
    (tables : OwnedTables s held) (virtualAddr physicalAddr flags : BitVec 64) :
    (mapPage s virtualAddr physicalAddr flags).2 = true ↔
      missingTables s (pml4Index virtualAddr) (pdptIndex virtualAddr) ≤
        (pool s.toMemoryState).free.card := by
  rw [mapPage_eq tables.root_ne_zero]
  exact ensureLeaf_succeeds_iff tables (pml4Index_lt virtualAddr) (pdptIndex_lt virtualAddr) _
    (by decide) (by decide) _

end M12
