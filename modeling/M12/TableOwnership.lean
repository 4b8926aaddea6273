/-
This file proves that the page tables lose no page.

A table's address is kept in `kernel_pml4` or in one entry of another table, and
that is the only place it is kept. Each page the paging code has taken from the
allocator is one of the tables it can still reach, however many of its
allocations failed: a page is linked as soon as it has been taken, and a call that
gives up leaves a larger tree behind. `CountedTables` couples the two counts, and
`takenRun` carries the number of pages taken along a run of calls.
-/

import M12.RegionMap

namespace M12

open ByteMemory

/-! ### Tables and references -/

/-- Where the address of a table can be kept. -/
inductive Place where
  | root
  | entry (n : Node) (e : Nat)
deriving DecidableEq

/-- A table that present entries lead to from `kernel_pml4`. -/
def Reachable (s : PagingState) (n : Node) : Prop :=
  s.kernelPml4 ≠ 0#64 ∧ Live s.ram s.kernelPml4 n

/-- A reachable table that is not one of the boot loader's. -/
def OwnTable (s : PagingState) (n : Node) : Prop :=
  Reachable s n ∧ 0x5000 ≤ (nodePage s.ram s.kernelPml4 n).toNat

/-- The place holds the address `page` of a table: `kernel_pml4` does, or a present entry of a
reachable table that is not the leaf of a large page. -/
def Refers (s : PagingState) (page : BitVec 64) : Place → Prop
  | .root => s.kernelPml4 = page
  | .entry n e =>
    Reachable s n ∧ e < 512 ∧ hasFlag (nodeEntry s.ram s.kernelPml4 n e) pagePresent = true ∧
      (n = .pml4 ∨ hasFlag (nodeEntry s.ram s.kernelPml4 n e) pageHuge = false) ∧
      tableOf (nodeEntry s.ram s.kernelPml4 n e) = page

/-- The one place a node's address should be kept in. -/
def placeOf : Node → Place
  | .pml4 => .root
  | .pdpt i => .entry .pml4 i
  | .pd i j => .entry (.pdpt i) j

/-! ### Runs that count -/

/-- The clients' state with the number of pages the paging code has taken. -/
structure TakenState extends ClientState where
  taken : Nat

/-- The pages a call of the paging code took from the allocator. The paging code frees nothing, so
they are the ones the allocator has fewer. -/
def pagesTaken (before after : PagingState) : Nat :=
  (pool before.toMemoryState).free.card - (pool after.toMemoryState).free.card

/-- The state after one call; only `map_page` takes pages for the paging code. -/
def takenStep (c : TakenState) (call : PagingCall) : TakenState where
  toClientState := pagingStep c.toClientState call
  taken := match call with
    | .map _ _ _ =>
      c.taken + pagesTaken c.toPagingState (pagingStep c.toClientState call).toPagingState
    | .get => c.taken
    | .free _ => c.taken

/-- The state after a run. -/
def takenRun (c : TakenState) (calls : List PagingCall) : TakenState := calls.foldl takenStep c

/-- The state after `Init_Paging`, called while clients may hold pages already. -/
def beginPaging (c : ClientState) : TakenState where
  toPagingState := (initPaging c.toPagingState).1
  held := c.held
  taken := pagesTaken c.toPagingState (initPaging c.toPagingState).1

/-- Clients free only pages they hold. -/
def FreesOnlyHeld (c : TakenState) : List PagingCall → Prop
  | [] => True
  | call :: rest =>
    (∀ page, call = .free page → page ∈ c.held) ∧ FreesOnlyHeld (takenStep c call) rest

/-- The kernel before `Init_Paging`: the allocator is in order, in whatever state, the boot
loader's tables are in force, and the clients hold used pages. -/
structure BeforePaging (c : ClientState) : Prop where
  managed : Managed c.toMemoryState
  mapped : BootMapped c.ram
  boot : c.cr3 = bootCr3
  heldUsed : ∀ page ∈ c.held, ∃ i, UsedPage c.toMemoryState page i

/-- The tables are a tree that the kernel owns and has not lost a page of. -/
structure OwnedTree (c : TakenState) : Prop where
  distinct : ∀ m n, OwnTable c.toPagingState m → OwnTable c.toPagingState n →
    nodePage c.ram c.kernelPml4 m = nodePage c.ram c.kernelPml4 n → m = n
  referenced : ∀ n, OwnTable c.toPagingState n →
    ∃! place, Refers c.toPagingState (nodePage c.ram c.kernelPml4 n) place
  used : ∀ n, OwnTable c.toPagingState n →
    ∃ i, UsedPage c.toMemoryState (nodePage c.ram c.kernelPml4 n) i
  notHeld : ∀ n, OwnTable c.toPagingState n → nodePage c.ram c.kernelPml4 n ∉ c.held
  counted : {page | ∃ n, OwnTable c.toPagingState n ∧
    nodePage c.ram c.kernelPml4 n = page}.ncard = c.taken

/-! ### The invariant -/

/-- The two tables of the boot loader hang where it put them, and each other live table is a page
that was taken. -/
structure CountedTables (s : PagingState) (held : Finset (BitVec 64)) (taken : Nat) : Prop where
  tables : OwnedTables s held
  livePd : Live s.ram s.kernelPml4 (.pd 0 0)
  pdpt : nodePage s.ram s.kernelPml4 (.pdpt 0) = 0x2000#64
  pd : nodePage s.ram s.kernelPml4 (.pd 0 0) = 0x3000#64
  nodes : ∃ nodes : Finset Node, (∀ n, n ∈ nodes ↔ Live s.ram s.kernelPml4 n) ∧
    nodes.card = taken + 2

section Counted

variable {s : PagingState} {held : Finset (BitVec 64)} {taken : Nat}
  (counted : CountedTables s held taken)
include counted

/-- The kernel's own tables are all the live ones but two. -/
theorem CountedTables.ownTable_iff (n : Node) :
    OwnTable s n ↔ Live s.ram s.kernelPml4 n ∧ n ≠ .pdpt 0 ∧ n ≠ .pd 0 0 := by
  have livePdpt : Live s.ram s.kernelPml4 (.pdpt 0) := counted.livePd.1
  constructor
  · rintro ⟨⟨-, live⟩, high⟩
    refine ⟨live, ?_, ?_⟩
    · rintro rfl
      rw [counted.pdpt, BitVec.toNat_ofNat] at high
      omega
    · rintro rfl
      rw [counted.pd, BitVec.toNat_ofNat] at high
      omega
  · rintro ⟨live, notPdpt, notPd⟩
    refine ⟨⟨counted.tables.root_ne_zero, live⟩, ?_⟩
    rcases counted.tables.owned n live with low | low | ⟨i, used⟩
    · exact absurd (counted.tables.distinct n _ live livePdpt (low.trans counted.pdpt.symm)) notPdpt
    · exact absurd (counted.tables.distinct n _ live counted.livePd (low.trans counted.pd.symm))
        notPd
    · have high := toNat_usedPage counted.tables.managed used
      omega

theorem CountedTables.used_of_ownTable {n : Node} (own : OwnTable s n) :
    ∃ i, UsedPage s.toMemoryState (nodePage s.ram s.kernelPml4 n) i := by
  rcases counted.tables.owned n own.1.2 with low | low | used
  · have high := own.2
    rw [low, BitVec.toNat_ofNat] at high
    omega
  · have high := own.2
    rw [low, BitVec.toNat_ofNat] at high
    omega
  · exact used

/-- An entry that refers to a table leads to the node below it. -/
theorem CountedTables.refers_entry {parent n : Node} {e : Nat} (own : OwnTable s n)
    (refers : Refers s (nodePage s.ram s.kernelPml4 n) (.entry parent e)) :
    placeOf n = .entry parent e := by
  obtain ⟨⟨-, live⟩, inside, present, inner, target⟩ := refers
  have child {node : Node} (below : Below parent e node) : n = node := by
    refine counted.tables.distinct n node own.1.2
      ((live_below below _ _).mpr ⟨live, inside, present⟩) ?_
    rw [nodePage_below below, target]
  cases parent with
  | pml4 =>
    rw [child (Below.pdpt e)]
    rfl
  | pdpt i =>
    rw [child (Below.pd i e)]
    rfl
  | pd i j =>
    -- A PD entry that is not a large page is the link to the boot loader's page table.
    rw [← leafEntry_of_live live] at present inner target
    rcases counted.tables.leaves i j e inside present with huge | small
    · rcases inner with same | small
      · exact Node.noConfusion same
      · rw [huge] at small
        exact Bool.noConfusion small
    · have high := own.2
      rw [← target, small] at high
      exact absurd high (by decide)

theorem CountedTables.refers_iff {n : Node} (own : OwnTable s n) (place : Place) :
    Refers s (nodePage s.ram s.kernelPml4 n) place ↔ place = placeOf n := by
  have live := own.1.2
  have notZero := own.1.1
  constructor
  · intro refers
    cases place with
    | root =>
      rw [counted.tables.distinct n .pml4 live trivial refers.symm]
      rfl
    | entry parent e => exact (counted.refers_entry own refers).symm
  · rintro rfl
    cases n with
    | pml4 => rfl
    | pdpt i => exact ⟨⟨notZero, trivial⟩, live.1, live.2, Or.inl rfl, rfl⟩
    | pd i j =>
      exact ⟨⟨notZero, live.1⟩, live.2.1, live.2.2, Or.inr (counted.tables.links i j live), rfl⟩

theorem CountedTables.ncard_ownTable :
    {page | ∃ n, OwnTable s n ∧ nodePage s.ram s.kernelPml4 n = page}.ncard = taken := by
  obtain ⟨nodes, members, card⟩ := counted.nodes
  have livePdpt : Live s.ram s.kernelPml4 (.pdpt 0) := counted.livePd.1
  have own (n : Node) : n ∈ (nodes.erase (.pd 0 0)).erase (.pdpt 0) ↔ OwnTable s n := by
    rw [Finset.mem_erase, Finset.mem_erase, members, counted.ownTable_iff]
    tauto
  have image : {page | ∃ n, OwnTable s n ∧ nodePage s.ram s.kernelPml4 n = page} =
      (((nodes.erase (.pd 0 0)).erase (.pdpt 0)).image (nodePage s.ram s.kernelPml4) :
        Finset (BitVec 64)) := by
    ext page
    rw [Finset.mem_coe, Finset.mem_image, Set.mem_ofPred_eq]
    simp only [own]
  have injective : Set.InjOn (nodePage s.ram s.kernelPml4)
      ((nodes.erase (.pd 0 0)).erase (.pdpt 0)) := by
    intro m memberM n memberN same
    rw [Finset.mem_coe, own] at memberM memberN
    exact counted.tables.distinct m n memberM.1.2 memberN.1.2 same
  have memberPd : Node.pd 0 0 ∈ nodes := (members _).mpr counted.livePd
  have memberPdpt : Node.pdpt 0 ∈ nodes.erase (.pd 0 0) :=
    Finset.mem_erase.mpr ⟨Node.noConfusion, (members _).mpr livePdpt⟩
  rw [image, Set.ncard_coe_finset, Finset.card_image_of_injOn injective,
    Finset.card_erase_of_mem memberPdpt, Finset.card_erase_of_mem memberPd, card]
  omega

/-- The count goes up by the nodes the tree gains. -/
theorem CountedTables.grow {next : PagingState} {heldNext : Finset (BitVec 64)}
    (tablesNext : OwnedTables next heldNext) {fresh : Finset Node}
    (live : ∀ n, Live next.ram next.kernelPml4 n ↔ Live s.ram s.kernelPml4 n ∨ n ∈ fresh)
    (pages : ∀ n, Live s.ram s.kernelPml4 n →
      nodePage next.ram next.kernelPml4 n = nodePage s.ram s.kernelPml4 n)
    (new : ∀ n ∈ fresh, ¬ Live s.ram s.kernelPml4 n) :
    CountedTables next heldNext (taken + fresh.card) := by
  obtain ⟨nodes, members, card⟩ := counted.nodes
  refine ⟨tablesNext, (live _).mpr (Or.inl counted.livePd), ?_, ?_, nodes ∪ fresh, fun n => ?_, ?_⟩
  · rw [pages (.pdpt 0) counted.livePd.1, counted.pdpt]
  · rw [pages _ counted.livePd, counted.pd]
  · rw [Finset.mem_union, members, live]
  · have apart : Disjoint nodes fresh := Finset.disjoint_left.mpr fun n old added =>
      new n added ((members n).mp old)
    rw [Finset.card_union_of_disjoint apart, card]
    omega

/-- A change that touches no live table changes no count. -/
theorem CountedTables.unchanged {next : PagingState} {heldNext : Finset (BitVec 64)}
    (tablesNext : OwnedTables next heldNext) (root : next.kernelPml4 = s.kernelPml4)
    (changes : ChangesNothing s.ram next.ram s.kernelPml4) : CountedTables next heldNext taken := by
  refine counted.grow tablesNext (fun n => ?_) (fun n live => ?_)
    fun n member => absurd member (Finset.notMem_empty n)
  · rw [root, live_unchanged changes, or_iff_left (Finset.notMem_empty n)]
  · rw [root, nodePage_unchanged changes live]

end Counted

/-! ### Init_Paging and each call -/

/-- There are no tables yet and none was taken, or the tables are counted. -/
def Accounted (c : TakenState) : Prop :=
  (c.kernelPml4 = 0#64 ∧ c.taken = 0) ∨ CountedTables c.toPagingState c.held c.taken

theorem ownedTree_of_accounted {c : TakenState} (accounted : Accounted c) : OwnedTree c := by
  rcases accounted with ⟨zero, none⟩ | counted
  · have nothing (n : Node) : ¬ OwnTable c.toPagingState n := fun own => own.1.1 zero
    refine ⟨fun m _ own => absurd own (nothing m), fun n own => absurd own (nothing n),
      fun n own => absurd own (nothing n), fun n own => absurd own (nothing n), ?_⟩
    have empty : {page | ∃ n, OwnTable c.toPagingState n ∧
        nodePage c.ram c.kernelPml4 n = page} = ∅ :=
      Set.eq_empty_of_forall_notMem fun page ⟨n, own, _⟩ => nothing n own
    rw [empty, Set.ncard_empty, none]
  · refine ⟨fun m n ownM ownN => counted.tables.distinct m n ownM.1.2 ownN.1.2,
      fun n own => ⟨placeOf n, (counted.refers_iff own _).mpr rfl, fun place refers =>
        (counted.refers_iff own place).mp refers⟩,
      fun n own => counted.used_of_ownTable own,
      fun n own => counted.tables.notHeld n own.1.2, counted.ncard_ownTable⟩

theorem pagesTaken_self (s : PagingState) : pagesTaken s s = 0 := Nat.sub_self _

theorem pagesTaken_of_grows {s next : PagingState} {fresh : Finset Node}
    (grows : Grows s next fresh) : pagesTaken s next = fresh.card := by
  rw [pagesTaken, ← grows.taken, Nat.add_sub_cancel_left]

/-- Under the new PML4 the count starts at one. -/
theorem counted_freshPml4 {c : ClientState} (before : BeforePaging c) {i : Nat}
    (free : i ∈ (pool c.toMemoryState).free) :
    CountedTables (freshPml4 c.toPagingState i) c.held 1 := by
  have mapped := bootMapped_freshPml4 before.managed free before.mapped
  have root {e : Nat} (inside : e < 512) := freshPml4_root before.managed free inside
  have live := live_fresh mapped fun _ => root
  refine ⟨owned_freshPml4 before.managed free before.mapped before.heldUsed,
    (live _).mpr (Or.inr (Or.inr rfl)), nodePage_fresh_pdpt fun _ => root,
    nodePage_fresh_pd mapped fun _ => root, {.pml4, .pdpt 0, .pd 0 0}, fun n => ?_, rfl⟩
  rw [live]
  simp only [Finset.mem_insert, Finset.mem_singleton]

theorem accounted_beginPaging {c : ClientState} (before : BeforePaging c) :
    Accounted (beginPaging c) := by
  rcases initPaging_cases before.managed before.mapped before.boot before.heldUsed with
    ⟨i, next, fresh, least, result, tables, grows, -⟩ | none
  · have counted := (counted_freshPml4 before least.1).grow tables grows.live grows.pages grows.new
    have card : pagesTaken c.toPagingState next = 1 + fresh.card := by
      have taken := grows.taken
      have positive := Finset.card_pos.mpr ⟨i, least.1⟩
      rw [free_freshPml4 before.managed least.1, Finset.card_erase_of_mem least.1] at taken
      rw [pagesTaken]
      omega
    refine Or.inr ?_
    rw [beginPaging, result]
    show CountedTables { next with cr3 := next.kernelPml4 } c.held (pagesTaken c.toPagingState next)
    rw [card]
    exact ⟨counted.tables.switch _, counted.livePd, counted.pdpt, counted.pd, counted.nodes⟩
  · refine Or.inl ?_
    rw [beginPaging, none]
    exact ⟨rfl, pagesTaken_self _⟩

/-- Each call keeps the account. -/
theorem accounted_step {c : TakenState} (accounted : Accounted c) {call : PagingCall}
    (holds : ∀ page, call = .free page → page ∈ c.held) : Accounted (takenStep c call) := by
  rcases accounted with ⟨zero, none⟩ | counted
  · refine Or.inl ?_
    cases call with
    | map virtualAddr physicalAddr flags =>
      have result : (mapPage c.toPagingState virtualAddr physicalAddr flags).1 =
          c.toPagingState := by
        rw [mapPage, if_pos zero]
      rw [takenStep, pagingStep, result]
      refine ⟨zero, ?_⟩
      show c.taken + pagesTaken c.toPagingState c.toPagingState = 0
      rw [pagesTaken_self, none]
    | get => exact ⟨zero, none⟩
    | free page => exact ⟨zero, none⟩
  · refine Or.inr ?_
    cases call with
    | map virtualAddr physicalAddr flags =>
      obtain ⟨next, fresh, tables, grows, cases⟩ :=
        mapPage_grows counted.tables virtualAddr physicalAddr flags
      have result : (mapPage c.toPagingState virtualAddr physicalAddr flags).1 = next := by
        rcases cases with ⟨result, -⟩ | ⟨result, -⟩
        · rw [result]
        · rw [result]
      rw [takenStep, pagingStep, result]
      show CountedTables next c.held (c.taken + pagesTaken c.toPagingState next)
      rw [pagesTaken_of_grows grows]
      exact counted.grow tables grows.live grows.pages grows.new
    | get =>
      rcases getPage_owned counted.tables with
        ⟨next, page, result, nonNull, -, tables, root, changes⟩ | none
      · rw [takenStep, pagingStep, result]
        simp only [if_neg nonNull]
        exact counted.unchanged tables root changes
      · rw [takenStep, pagingStep, none]
        simp only [if_true]
        exact counted
    | free page =>
      obtain ⟨tables, changes⟩ := freePage_owned counted.tables (holds page rfl)
      exact counted.unchanged tables rfl changes

/-! ### Every run -/

theorem accounted_run {c : TakenState} (accounted : Accounted c) {calls : List PagingCall}
    (holds : FreesOnlyHeld c calls) : Accounted (takenRun c calls) := by
  induction calls generalizing c with
  | nil => exact accounted
  | cons call rest inductionHypothesis =>
    exact inductionHypothesis (accounted_step accounted holds.1) holds.2

/-- The tables are an owned tree with no leak. From any state of the allocator, after `Init_Paging`
and any calls of `map_page`, allocations and frees of held pages, whether or not each allocation
succeeded: the tables the kernel reaches sit in distinct pages, each referred to from one place,
used and held by no client, and there are as many of them as pages taken for them. -/
theorem page_tables_owned_tree (c : ClientState) (before : BeforePaging c)
    (calls : List PagingCall) (holds : FreesOnlyHeld (beginPaging c) calls) :
    OwnedTree (takenRun (beginPaging c) calls) :=
  ownedTree_of_accounted (accounted_run (accounted_beginPaging before) holds)

/-- The state the boot loader and `Init_Memory` leave is one `Init_Paging` can be called in. -/
theorem beforePaging_boot {ram : Memory} (zeroed : ZeroedTables ram) :
    BeforePaging { toPagingState := bootPaging ram, held := ∅ } where
  managed := managed_initMemory (setUpBootTables ram)
  mapped := bootMapped_bootPaging zeroed
  boot := rfl
  heldUsed := fun page member => absurd member (Finset.notMem_empty page)

theorem freesOnlyHeld_of_no_free {c : TakenState} {calls : List PagingCall}
    (none : ∀ page, .free page ∉ calls) : FreesOnlyHeld c calls := by
  induction calls generalizing c with
  | nil => trivial
  | cons call rest inductionHypothesis =>
    refine ⟨?_, inductionHypothesis fun page member => none page (List.mem_cons_of_mem _ member)⟩
    rintro page rfl
    exact absurd List.mem_cons_self (none page)

/-- The machine of a blank memory, once its boot loader and `Init_Memory` have run. -/
theorem page_tables_owned_tree_blank :
    OwnedTree (takenRun (beginPaging { toPagingState := bootPaging fun _ => 0#8, held := ∅ })
      [.map 0x40000000#64 0x200000#64 3#64, .get]) := by
  exact page_tables_owned_tree _ (beforePaging_boot zeroedTables_blank) _
    (freesOnlyHeld_of_no_free (by simp))

end M12
