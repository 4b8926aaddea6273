/-
This file asks whether `map_page` grants the permissions its caller passes.

The processor joins the U and W bits of every entry on an address's walk, so the
leaf decides only where the entries above it allow everything. A link that
`map_page` creates does; a link that was there before stays as it was made, by the
boot loader, by `setup_kernel_mappings` or by an earlier call. `LinksAs` is what
every operation does to the links: an old one keeps its low bits, a new one has
those of the operation. Each link has PAGE_WRITABLE from the start, PAGE_USER only
where `map_page` made it, and what is left of the flags follows from that.
-/

import M12.AddressShortcut

namespace M12

open ByteMemory

/-! ### Permissions -/

/-- The walk of the call's address finds the permissions of the call's flags. -/
def Grants (s : PagingState) (call : MapCall) : Prop :=
  ∃ found, walk s.ram s.kernelPml4 call.virtualAddr = some found ∧
    found.user = hasFlag call.flags pageUser ∧ found.writable = hasFlag call.flags pageWritable

/-- Each link on the way to the address that exists already has PAGE_USER. -/
def UserPath (s : PagingState) (v : BitVec 64) : Prop :=
  (Live s.ram s.kernelPml4 (.pdpt (pml4Index v)) →
      hasFlag (nodeEntry s.ram s.kernelPml4 .pml4 (pml4Index v)) pageUser = true) ∧
    (Live s.ram s.kernelPml4 (.pd (pml4Index v) (pdptIndex v)) →
      hasFlag (nodeEntry s.ram s.kernelPml4 (.pdpt (pml4Index v)) (pdptIndex v)) pageUser = true)

/-- Neither the links that exist nor the low bits of the physical address come between the call's
flags and the permissions. -/
structure FlagsDecide (s : PagingState) (call : MapCall) : Prop where
  writable : hasFlag call.physicalAddr pageWritable = true → hasFlag call.flags pageWritable = true
  granted : hasFlag call.flags pageUser = true → UserPath s call.virtualAddr
  withheld : hasFlag call.physicalAddr pageUser = true → UserPath s call.virtualAddr →
    hasFlag call.flags pageUser = true

/-- Every link has PAGE_WRITABLE. -/
def WritableLinks (s : PagingState) : Prop :=
  ∀ parent index child, Below parent index child → Live s.ram s.kernelPml4 child →
    hasFlag (nodeEntry s.ram s.kernelPml4 parent index) pageWritable = true

/-! ### What becomes of the links -/

/-- Each link of `next` has the low bits it had in `s`, or those of `flags` where it is new. -/
structure LinksAs (s next : PagingState) (flags : BitVec 64) : Prop where
  live : ∀ n, Live s.ram s.kernelPml4 n → Live next.ram next.kernelPml4 n
  bits : ∀ parent index child, Below parent index child → Live next.ram next.kernelPml4 child →
    ∀ bit < 12, (nodeEntry next.ram next.kernelPml4 parent index).getLsbD bit =
      if Live s.ram s.kernelPml4 child then
        (nodeEntry s.ram s.kernelPml4 parent index).getLsbD bit
      else flags.getLsbD bit

theorem LinksAs.refl (s : PagingState) (flags : BitVec 64) : LinksAs s s flags where
  live := fun _ live => live
  bits := fun _ _ _ _ live _ _ => (if_pos live).symm

theorem LinksAs.trans {first second third : PagingState} {flags : BitVec 64}
    (early : LinksAs first second flags) (late : LinksAs second third flags) :
    LinksAs first third flags where
  live := fun n live => late.live n (early.live n live)
  bits := by
    intro parent index child below liveChild bit low
    rw [late.bits parent index child below liveChild bit low]
    by_cases old : Live second.ram second.kernelPml4 child
    · rw [if_pos old]
      exact early.bits parent index child below old bit low
    · rw [if_neg old, if_neg fun older => old (early.live child older)]

/-- Links that are all kept or made with PAGE_WRITABLE all have it. -/
theorem WritableLinks.keep {s next : PagingState} {flags : BitVec 64}
    (writable : WritableLinks s) (links : LinksAs s next flags)
    (made : hasFlag flags pageWritable = true) : WritableLinks next := by
  intro parent index child below live
  rw [hasFlag_writable, links.bits parent index child below live 1 (by decide)]
  split_ifs with old
  · rw [← hasFlag_writable]
    exact writable parent index child below old
  · rwa [← hasFlag_writable]

/-- An operation that changes no live table changes no link. -/
theorem linksAs_of_changesNothing {s next : PagingState} (root : next.kernelPml4 = s.kernelPml4)
    (changes : ChangesNothing s.ram next.ram s.kernelPml4) (flags : BitVec 64) :
    LinksAs s next flags := by
  refine ⟨fun n live => ?_, fun parent index child below live bit _ => ?_⟩
  · rw [root]
    exact (live_unchanged changes n).mpr live
  · rw [root] at live ⊢
    have old := (live_unchanged changes child).mp live
    obtain ⟨liveParent, inside, -⟩ := (live_below below _ _).mp old
    rw [if_pos old, nodeEntry, nodePage_unchanged changes liveParent,
      changes parent liveParent index inside]

/-- Neither does the write of a leaf. -/
theorem linksAs_writeLeaf {s : PagingState} {held : Finset (BitVec 64)}
    (tables : OwnedTables s held) {a b c : Nat} (live : Live s.ram s.kernelPml4 (.pd a b))
    (inside : c < 512) (value flags : BitVec 64) :
    LinksAs s (writeEntry s (nodePage s.ram s.kernelPml4 (.pd a b)) c value) flags := by
  have changes := changesOnly_write tables live inside value
  refine ⟨fun n => (live_writeLeaf changes n).mpr,
    fun parent index child below liveNext bit _ => ?_⟩
  have old : Live s.ram s.kernelPml4 child := (live_writeLeaf changes child).mp liveNext
  obtain ⟨liveParent, indexInside, -⟩ := (live_below below _ _).mp old
  have inner : parent ≠ .pd a b := by
    rintro rfl
    cases below
  have entry : WordTable.read (writeEntry s (nodePage s.ram s.kernelPml4 (.pd a b)) c value).ram
      (nodePage s.ram s.kernelPml4 parent) index = nodeEntry s.ram s.kernelPml4 parent index :=
    (changes parent liveParent index indexInside).trans (if_neg fun both => inner both.1)
  rw [if_pos old, nodeEntry]
  show (WordTable.read _ (nodePage _ s.kernelPml4 parent) index).getLsbD bit = _
  rw [show nodePage (writeEntry s (nodePage s.ram s.kernelPml4 (.pd a b)) c value).ram
    s.kernelPml4 parent = nodePage s.ram s.kernelPml4 parent from
      nodePage_writeLeaf changes liveParent, entry]

/-! ### The level pattern -/

/-- A page joined with flags has the low bits of the flags. -/
theorem getLsbD_link {page flags : BitVec 64} (aligned : WordTable.Aligned page) {bit : Nat}
    (low : bit < 12) : (page ||| flags).getLsbD bit = flags.getLsbD bit := by
  rw [BitVec.getLsbD_or, getLsbD_of_multiple 12 aligned low, Bool.false_or]

/-- The entry a level ends up with: the one that was there, or a page with the flags. -/
theorem ensureTable_entry {s next : PagingState} (managed : Managed s.toMemoryState)
    {table : BitVec 64} {index : Nat} {flags : BitVec 64}
    (result : ensureTable s table index flags = (next, true)) {bit : Nat} (low : bit < 12) :
    (WordTable.read next.ram table index).getLsbD bit =
      if hasFlag (WordTable.read s.ram table index) pagePresent = true then
        (WordTable.read s.ram table index).getLsbD bit
      else flags.getLsbD bit := by
  rw [ensureTable] at result
  split_ifs at result ⊢ with present
  · rw [Prod.mk.injEq] at result
    rw [result.1]
  · rcases getPage_cases managed with ⟨i, least, got⟩ | ⟨-, none⟩
    · have inside : i < s.totalPages.toNat := IndexPool.lt_total least.1
      rw [got] at result
      simp only [if_neg (pageAddress_ne_zero managed inside), Prod.mk.injEq] at result
      rw [← result.1, writeEntry, WordTable.read_write_self]
      exact getLsbD_link (aligned_pageAddress managed inside) low
    · rw [none] at result
      simp only [if_true, Prod.mk.injEq] at result
      exact absurd result.2 Bool.false_ne_true

/-- A level that is made sure of keeps the links and adds at most its own. -/
theorem ensureTable_links {s next : PagingState} {held : Finset (BitVec 64)}
    (tables : OwnedTables s held) {parent child : Node} {index : Nat}
    (below : Below parent index child) (live : Live s.ram s.kernelPml4 parent)
    (inside : index < 512) {flags : BitVec 64} (small : flags.toNat < 128)
    (present : hasFlag flags pagePresent = true)
    (result : ensureTable s (nodePage s.ram s.kernelPml4 parent) index flags = (next, true)) :
    LinksAs s next flags := by
  rcases ensureTable_owned tables below live inside small present with
    ⟨grown, resultGrown, tablesNext, extended, liveNext⟩ | failed
  · obtain rfl : next = grown := congrArg Prod.fst (result.symm.trans resultGrown)
    refine ⟨extended.live, fun parentN indexN childN belowN liveN bit low => ?_⟩
    by_cases old : Live s.ram s.kernelPml4 childN
    · obtain ⟨liveParent, indexInside, presentN⟩ := (live_below belowN _ _).mp old
      rw [if_pos old, extended.entries parentN liveParent indexN indexInside presentN]
    · -- The one new link is the one the level has just been given.
      have same := ((liveNext childN).mp liveN).resolve_left old
      obtain ⟨rfl, rfl⟩ : parentN = parent ∧ indexN = index := by
        subst same
        cases belowN <;> cases below <;> exact ⟨rfl, rfl⟩
      have absent : ¬ hasFlag (WordTable.read s.ram (nodePage s.ram s.kernelPml4 parentN) indexN)
          pagePresent = true := fun there => old ((live_below belowN _ _).mpr ⟨live, inside, there⟩)
      rw [if_neg old, nodeEntry, extended.pages parentN live,
        ensureTable_entry tables.managed result low, if_neg absent]
  · rw [result, Prod.mk.injEq] at failed
    exact absurd failed.2 Bool.noConfusion

/-- Two levels and a leaf do so too, whether or not there were pages enough. -/
theorem ensureLeaf_links {s : PagingState} {held : Finset (BitVec 64)}
    (tables : OwnedTables s held) {i j k : Nat} (iInside : i < 512) (jInside : j < 512)
    (kInside : k < 512) {flags : BitVec 64} (small : flags.toNat < 128)
    (present : hasFlag flags pagePresent = true) (value : BitVec 64) :
    LinksAs s (ensureLeaf s s.kernelPml4 i j k flags value).1 flags := by
  rcases ensureLeaf_cases tables iInside jInside k small present value with
    ⟨first, second, madeFirst, madeSecond, result⟩ | ⟨first, madeFirst, result⟩ | result
  · obtain ⟨tablesFirst, -, livePdpt, -⟩ :=
      ensureTable_made tables (Below.pdpt i) trivial iInside small present madeFirst
    obtain ⟨tablesSecond, -, livePd, -⟩ :=
      ensureTable_made tablesFirst (Below.pd i j) livePdpt jInside small present madeSecond
    rw [result]
    have linksFirst := ensureTable_links tables (Below.pdpt i) trivial iInside small present
      madeFirst
    have linksSecond := ensureTable_links tablesFirst (Below.pd i j) livePdpt jInside small
      present madeSecond
    exact (linksFirst.trans linksSecond).trans
      (linksAs_writeLeaf tablesSecond livePd kInside value flags)
  · rw [result]
    exact ensureTable_links tables (Below.pdpt i) trivial iInside small present madeFirst
  · rw [result]
    exact LinksAs.refl s flags

theorem mapPage_links {s : PagingState} {held : Finset (BitVec 64)} (tables : OwnedTables s held)
    (virtualAddr physicalAddr flags : BitVec 64) :
    LinksAs s (mapPage s virtualAddr physicalAddr flags).1 7#64 := by
  rw [mapPage_eq tables.root_ne_zero]
  exact ensureLeaf_links tables (pml4Index_lt virtualAddr) (pdptIndex_lt virtualAddr)
    (pdIndex_lt virtualAddr) (by decide) (by decide) _

/-! ### Init_Paging and every run -/

/-- The links of a successful `Init_Paging` are those of the new PML4 and its own. -/
theorem initPaging_links {s : PagingState} (managed : Managed s.toMemoryState)
    (mapped : BootMapped s.ram) (boot : s.cr3 = bootCr3) (complete : (initPaging s).2 = true) :
    ∃ i, i ∈ (pool s.toMemoryState).free ∧ LinksAs (freshPml4 s i) (initPaging s).1 3#64 := by
  rcases getPage_cases managed with ⟨i, least, -⟩ | ⟨-, none⟩
  · refine ⟨i, least.1, ?_⟩
    have links := ensureLeaf_links (owned_freshPml4 managed least.1 mapped noneHeld)
      (show 511 < 512 by decide) (show 510 < 512 by decide) (show 0 < 512 by decide)
      (show (3#64).toNat < 128 by decide) (show hasFlag 3#64 pagePresent = true by decide) 0x183#64
    rw [← setupKernelMappings_eq] at links
    rw [initPaging_some managed mapped boot least, switchPml4]
    split_ifs
    · exact ⟨links.live, links.bits⟩
    · exact links
  · rw [initPaging_none boot none] at complete
    exact absurd complete Bool.false_ne_true

/-- The boot loader's links have PAGE_WRITABLE and not PAGE_USER. -/
theorem link_freshPml4 {s : PagingState} (managed : Managed s.toMemoryState)
    (mapped : BootMapped s.ram) {i : Nat} (free : i ∈ (pool s.toMemoryState).free)
    {parent child : Node} {index : Nat} (below : Below parent index child)
    (live : Live (freshPml4 s i).ram (freshPml4 s i).kernelPml4 child) :
    hasFlag (nodeEntry (freshPml4 s i).ram (freshPml4 s i).kernelPml4 parent index) pageWritable =
        true ∧
      hasFlag (nodeEntry (freshPml4 s i).ram (freshPml4 s i).kernelPml4 parent index) pageUser =
        false := by
  have mappedFresh := bootMapped_freshPml4 managed free mapped
  have root : ∀ e < 512, WordTable.read (freshPml4 s i).ram (freshPml4 s i).kernelPml4 e =
      if e = 0 then 0x2003#64 else 0#64 := fun e inside => freshPml4_root managed free inside
  have nodes := (live_fresh mappedFresh root child).mp live
  cases below with
  | pdpt a =>
    simp only [reduceCtorEq, Node.pdpt.injEq, or_false, false_or] at nodes
    rw [nodes, nodeEntry, nodePage, root 0 (by decide)]
    decide
  | pd a b =>
    simp only [reduceCtorEq, Node.pd.injEq, false_or] at nodes
    rw [nodes.1, nodes.2, nodeEntry, nodePage_fresh_pdpt root, mappedFresh.pdpt 0 (by decide)]
    decide

/-- The first 512 GB hang from the boot loader's PDPT, which is linked without PAGE_USER. -/
theorem supervisor_initPaging {s : PagingState} (managed : Managed s.toMemoryState)
    (mapped : BootMapped s.ram) (boot : s.cr3 = bootCr3) (complete : (initPaging s).2 = true) :
    hasFlag (nodeEntry (initPaging s).1.ram (initPaging s).1.kernelPml4 .pml4 0) pageUser =
      false := by
  obtain ⟨i, free, links⟩ := initPaging_links managed mapped boot complete
  have live : Live (freshPml4 s i).ram (freshPml4 s i).kernelPml4 (.pdpt 0) :=
    (live_fresh (bootMapped_freshPml4 managed free mapped)
      (fun _ inside => freshPml4_root managed free inside) _).mpr (Or.inr (Or.inl rfl))
  have kept := links.bits _ _ _ (Below.pdpt 0) (links.live _ live) 2 (by decide)
  rw [if_pos live, ← hasFlag_user, ← hasFlag_user] at kept
  rw [kept]
  exact (link_freshPml4 managed mapped free (Below.pdpt 0) live).2

theorem writableLinks_initPaging {s : PagingState} (managed : Managed s.toMemoryState)
    (mapped : BootMapped s.ram) (boot : s.cr3 = bootCr3) (complete : (initPaging s).2 = true) :
    WritableLinks (initPaging s).1 := by
  obtain ⟨i, free, links⟩ := initPaging_links managed mapped boot complete
  have start : WritableLinks (freshPml4 s i) := fun parent index child below live =>
    (link_freshPml4 managed mapped free below live).1
  exact start.keep links (by decide)

/-- Each call keeps PAGE_WRITABLE in the links. -/
theorem writableLinks_step {c : TakenState} (tables : OwnedTables c.toPagingState c.held)
    (writable : WritableLinks c.toPagingState) {call : PagingCall}
    (holds : ∀ page, call = .free page → page ∈ c.held) :
    OwnedTables (takenStep c call).toPagingState (takenStep c call).held ∧
      WritableLinks (takenStep c call).toPagingState := by
  cases call with
  | map virtualAddr physicalAddr flags =>
    have links := mapPage_links tables virtualAddr physicalAddr flags
    obtain ⟨next, _, tablesNext, -, ⟨result, -⟩ | ⟨result, -⟩⟩ :=
      mapPage_grows tables virtualAddr physicalAddr flags
    · rw [takenStep, pagingStep]
      rw [result] at links ⊢
      exact ⟨tablesNext, writable.keep links (by decide)⟩
    · rw [takenStep, pagingStep]
      rw [result] at links ⊢
      exact ⟨tablesNext, writable.keep links (by decide)⟩
  | get =>
    rw [takenStep, pagingStep]
    rcases getPage_owned tables with
      ⟨next, page, result, nonNull, -, tablesNext, root, changes⟩ | none
    · rw [result]
      simp only [if_neg nonNull]
      exact ⟨tablesNext, writable.keep (linksAs_of_changesNothing root changes 3#64) (by decide)⟩
    · rw [none]
      simp only [if_true]
      exact ⟨tables, writable⟩
  | free page =>
    obtain ⟨tablesNext, changes⟩ := freePage_owned tables (holds page rfl)
    have links : LinksAs c.toPagingState (freePage c.toPagingState page) 3#64 :=
      linksAs_of_changesNothing (show (freePage c.toPagingState page).kernelPml4 =
        c.kernelPml4 from rfl) changes 3#64
    exact ⟨tablesNext, writable.keep links (by decide)⟩

theorem writableLinks_run {c : TakenState} (tables : OwnedTables c.toPagingState c.held)
    (writable : WritableLinks c.toPagingState) {calls : List PagingCall}
    (holds : FreesOnlyHeld c calls) :
    OwnedTables (takenRun c calls).toPagingState (takenRun c calls).held ∧
      WritableLinks (takenRun c calls).toPagingState := by
  induction calls generalizing c with
  | nil => exact ⟨tables, writable⟩
  | cons call rest inductionHypothesis =>
    obtain ⟨tablesNext, writableNext⟩ := writableLinks_step tables writable holds.1
    exact inductionHypothesis tablesNext writableNext holds.2

/-- After a successful `Init_Paging` the tables stay in order and every link writable. -/
theorem run_beginPaging {c : ClientState} (before : BeforePaging c)
    (complete : (initPaging c.toPagingState).2 = true) {calls : List PagingCall}
    (holds : FreesOnlyHeld (beginPaging c) calls) :
    CountedTables (takenRun (beginPaging c) calls).toPagingState
        (takenRun (beginPaging c) calls).held (takenRun (beginPaging c) calls).taken ∧
      WritableLinks (takenRun (beginPaging c) calls).toPagingState := by
  have started := (owned_initPaging before.managed before.mapped before.boot complete).1
  have counted := (accounted_beginPaging before).resolve_left
    fun none => started.root_ne_zero none.1
  obtain ⟨tables, writable⟩ := writableLinks_run counted.tables
    (writableLinks_initPaging before.managed before.mapped before.boot complete) holds
  exact ⟨(accounted_run (Or.inr counted) holds).resolve_left
    fun none => tables.root_ne_zero none.1, writable⟩

/-! ### The permissions of the walk -/

/-- The walk of an address whose region has a large leaf meets the two links and the leaf. -/
theorem walk_of_huge {s : PagingState} {held : Finset (BitVec 64)} (tables : OwnedTables s held)
    {v leaf : BitVec 64}
    (entry : leafEntry s.ram s.kernelPml4 (pml4Index v) (pdptIndex v) (pdIndex v) = leaf)
    (present : hasFlag leaf pagePresent = true) (huge : hasFlag leaf pageHuge = true) :
    Live s.ram s.kernelPml4 (.pd (pml4Index v) (pdptIndex v)) ∧
      walk s.ram s.kernelPml4 v = some (leafTranslation v leaf 21
        [nodeEntry s.ram s.kernelPml4 .pml4 (pml4Index v),
          nodeEntry s.ram s.kernelPml4 (.pdpt (pml4Index v)) (pdptIndex v), leaf]) := by
  have live : Live s.ram s.kernelPml4 (.pd (pml4Index v) (pdptIndex v)) := by
    by_contra dead
    rw [leafEntry_of_not_live dead] at entry
    rw [← entry] at present
    exact absurd present (by decide)
  have above : Live s.ram s.kernelPml4 (.pdpt (pml4Index v)) := live.1
  refine ⟨live, ?_⟩
  rw [leafEntry_of_live live] at entry
  rw [walk]
  simp only
  rw [show WordTable.read s.ram s.kernelPml4 (pml4Index v) =
      nodeEntry s.ram s.kernelPml4 .pml4 (pml4Index v) from rfl, above.2,
    nextTable_of_live tables (Below.pdpt _) above,
    show WordTable.read s.ram (nodePage s.ram s.kernelPml4 (.pdpt (pml4Index v)))
      (pdptIndex v) = nodeEntry s.ram s.kernelPml4 (.pdpt (pml4Index v)) (pdptIndex v) from rfl,
    live.2.2, tables.links _ _ live, nextTable_of_live tables (Below.pd _ _) live,
    show WordTable.read s.ram (nodePage s.ram s.kernelPml4 (.pd (pml4Index v)
      (pdptIndex v))) (pdIndex v) = leaf from entry, present, huge]
  rfl

/-- The walk of the address of a call that wrote its leaf. -/
theorem walk_written {s : PagingState} {held : Finset (BitVec 64)} (tables : OwnedTables s held)
    {call : MapCall}
    (present : hasFlag (call.physicalAddr ||| call.flags ||| pageHuge) pagePresent = true)
    (written : Writes s call) :
    Live (mapStep s call).ram (mapStep s call).kernelPml4
        (.pd (pml4Index call.virtualAddr) (pdptIndex call.virtualAddr)) ∧
      walk (mapStep s call).ram (mapStep s call).kernelPml4 call.virtualAddr =
        some (leafTranslation call.virtualAddr (call.physicalAddr ||| call.flags ||| pageHuge) 21
          [nodeEntry (mapStep s call).ram (mapStep s call).kernelPml4 .pml4
              (pml4Index call.virtualAddr),
            nodeEntry (mapStep s call).ram (mapStep s call).kernelPml4
              (.pdpt (pml4Index call.virtualAddr)) (pdptIndex call.virtualAddr),
            call.physicalAddr ||| call.flags ||| pageHuge]) := by
  obtain ⟨tablesNext, leaves⟩ := mapStep_written tables written
  refine walk_of_huge tablesNext ?_ present (hasFlag_or_huge _)
  rw [leaves _ _ _ (pdIndex_lt call.virtualAddr), if_pos ⟨rfl, rfl, rfl⟩]

/-- After the call the two links of its address have PAGE_USER exactly when those that were there
had it. -/
theorem userPath_mapStep {s : PagingState} {held : Finset (BitVec 64)}
    (tables : OwnedTables s held) (call : MapCall)
    (live : Live (mapStep s call).ram (mapStep s call).kernelPml4
      (.pd (pml4Index call.virtualAddr) (pdptIndex call.virtualAddr))) :
    (hasFlag (nodeEntry (mapStep s call).ram (mapStep s call).kernelPml4 .pml4
        (pml4Index call.virtualAddr)) pageUser &&
      hasFlag (nodeEntry (mapStep s call).ram (mapStep s call).kernelPml4
        (.pdpt (pml4Index call.virtualAddr)) (pdptIndex call.virtualAddr)) pageUser) = true ↔
      UserPath s call.virtualAddr := by
  have links := mapPage_links tables call.virtualAddr call.physicalAddr call.flags
  have above : Live (mapStep s call).ram (mapStep s call).kernelPml4
    (.pdpt (pml4Index call.virtualAddr)) := live.1
  have top := links.bits _ _ _ (Below.pdpt _) above 2 (by decide)
  have middle := links.bits _ _ _ (Below.pd _ _) live 2 (by decide)
  rw [← hasFlag_user, ← hasFlag_user, ← hasFlag_user, show hasFlag 7#64 pageUser = true by decide]
    at top middle
  rw [Bool.and_eq_true, UserPath]
  refine and_congr ?_ ?_
  · rw [show hasFlag (nodeEntry (mapStep s call).ram (mapStep s call).kernelPml4 .pml4
      (pml4Index call.virtualAddr)) pageUser = _ from top]
    exact ite_eq_right_iff
  · rw [show hasFlag (nodeEntry (mapStep s call).ram (mapStep s call).kernelPml4
      (.pdpt (pml4Index call.virtualAddr)) (pdptIndex call.virtualAddr)) pageUser = _ from middle]
    exact ite_eq_right_iff

/-- The permissions a written leaf has of its own. -/
theorem leaf_permissions (physicalAddr flags : BitVec 64) :
    hasFlag (physicalAddr ||| flags ||| pageHuge) pageUser =
        (hasFlag physicalAddr pageUser || hasFlag flags pageUser) ∧
      hasFlag (physicalAddr ||| flags ||| pageHuge) pageWritable =
        (hasFlag physicalAddr pageWritable || hasFlag flags pageWritable) := by
  rw [hasFlag_or_user, hasFlag_or_user, hasFlag_or_writable, hasFlag_or_writable,
    show hasFlag pageHuge pageUser = false by decide,
    show hasFlag pageHuge pageWritable = false by decide, Bool.or_false, Bool.or_false]
  exact ⟨rfl, rfl⟩

/-- One call in any state whose tables are in order. -/
theorem grants_iff {s : PagingState} {held : Finset (BitVec 64)} (tables : OwnedTables s held)
    (writable : WritableLinks s) {call : MapCall}
    (present : hasFlag call.flags pagePresent = true) (written : Writes s call) :
    Grants (mapStep s call) call ↔ FlagsDecide s call := by
  obtain ⟨leafUser, leafWritable⟩ := leaf_permissions call.physicalAddr call.flags
  obtain ⟨live, walked⟩ :=
    walk_written tables (hasFlag_present_leaf present call.physicalAddr) written
  have writableNext : WritableLinks (mapStep s call) :=
    writable.keep (mapPage_links tables _ _ _) (by decide)
  have above : Live (mapStep s call).ram (mapStep s call).kernelPml4
    (.pdpt (pml4Index call.virtualAddr)) := live.1
  have userLinks := userPath_mapStep tables call live
  have topWritable := writableNext _ _ _ (Below.pdpt _) above
  have middleWritable := writableNext _ _ _ (Below.pd _ _) live
  rw [Grants, walked]
  simp only [Option.some.injEq, exists_eq_left', leafTranslation, List.all_cons, List.all_nil,
    Bool.and_true, topWritable, middleWritable, Bool.true_and, leafUser, leafWritable]
  rw [← Bool.and_assoc]
  generalize (hasFlag _ pageUser && hasFlag _ pageUser) = links at userLinks ⊢
  constructor
  · rintro ⟨user, writableSame⟩
    refine ⟨fun page => ?_, fun asked => ?_, fun page path => ?_⟩
    · rw [← writableSame, page, Bool.true_or]
    · rw [asked, Bool.or_true, Bool.and_true] at user
      exact userLinks.mp user
    · rw [← user, userLinks.mpr path, page, Bool.true_or, Bool.true_and]
  · rintro ⟨writableIn, granted, withheld⟩
    constructor
    · cases asked : hasFlag call.flags pageUser with
      | true => rw [userLinks.mpr (granted asked), Bool.or_true, Bool.and_true]
      | false =>
        rw [Bool.or_false, Bool.and_eq_false_iff]
        by_contra both
        rw [not_or, Bool.not_eq_false, Bool.not_eq_false] at both
        have user := withheld both.2 (userLinks.mp both.1)
        exact Bool.noConfusion (asked.symm.trans user)
    · cases page : hasFlag call.physicalAddr pageWritable with
      | true => rw [writableIn page, Bool.true_or]
      | false => rw [Bool.false_or]

/-- `map_page` grants what its flags ask for exactly when the flags decide. After a successful
`Init_Paging` in any state of the allocator and any calls of `map_page`, allocations and frees of
held pages, a successful call leaves the effective PAGE_USER and PAGE_WRITABLE of its address as in
its flags if and only if the physical address adds neither and, where PAGE_USER is asked for, each
link that was there on the address's walk has it. -/
theorem mapPage_grants_flags_iff (c : ClientState) (before : BeforePaging c)
    (complete : (initPaging c.toPagingState).2 = true) (calls : List PagingCall)
    (holds : FreesOnlyHeld (beginPaging c) calls) (call : MapCall)
    (present : hasFlag call.flags pagePresent = true)
    (written : Writes (takenRun (beginPaging c) calls).toPagingState call) :
    Grants (mapStep (takenRun (beginPaging c) calls).toPagingState call) call ↔
      FlagsDecide (takenRun (beginPaging c) calls).toPagingState call := by
  obtain ⟨counted, writable⟩ := run_beginPaging before complete holds
  exact grants_iff counted.tables writable present written

/-- A client takes a page; the second 2 MB of memory can be mapped whether it got one or not. -/
theorem writes_afterTake {c : ClientState} (before : BeforePaging c)
    (complete : (initPaging c.toPagingState).2 = true) (physicalAddr flags : BitVec 64) :
    FreesOnlyHeld (beginPaging c) [.get] ∧
      Writes (takenRun (beginPaging c) [.get]).toPagingState
        ⟨0x200000#64, physicalAddr, flags⟩ := by
  have holds : FreesOnlyHeld (beginPaging c) [.get] := freesOnlyHeld_of_no_free (by simp)
  have counted := (run_beginPaging before complete holds).1
  have live : Live (takenRun (beginPaging c) [.get]).ram
      (takenRun (beginPaging c) [.get]).kernelPml4
      (.pd (pml4Index 0x200000#64) (pdptIndex 0x200000#64)) := counted.livePd
  exact ⟨holds, writes_of_live counted.tables live⟩

/-- The machine of a blank memory when `Init_Paging` is called. -/
def blankClient : ClientState := { toPagingState := bootPaging fun _ => 0#8, held := ∅ }

/-- On a blank machine a client takes a page and a kernel page is mapped. -/
theorem mapPage_grants_flags_blank :
    Writes (takenRun (beginPaging blankClient) [.get]).toPagingState
        ⟨0x200000#64, 0x400000#64, 3#64⟩ ∧
      (Grants (mapStep (takenRun (beginPaging blankClient) [.get]).toPagingState
          ⟨0x200000#64, 0x400000#64, 3#64⟩) ⟨0x200000#64, 0x400000#64, 3#64⟩ ↔
        FlagsDecide (takenRun (beginPaging blankClient) [.get]).toPagingState
          ⟨0x200000#64, 0x400000#64, 3#64⟩) := by
  have before : BeforePaging blankClient := beforePaging_boot zeroedTables_blank
  have complete : (initPaging blankClient.toPagingState).2 = true := complete_blank.1
  generalize blankClient = c at *
  obtain ⟨holds, written⟩ := writes_afterTake before complete 0x400000#64 3#64
  exact ⟨written, mapPage_grants_flags_iff c before complete [.get] holds _ (by decide) written⟩

/-- On a blank machine a page mapped for users below 512 GB is not one for users. -/
theorem mapPage_withholds_user :
    (initPaging blankClient.toPagingState).2 = true ∧
      Writes (initPaging blankClient.toPagingState).1 ⟨0x200000#64, 0x400000#64, 7#64⟩ ∧
      ¬ Grants (mapStep (initPaging blankClient.toPagingState).1
        ⟨0x200000#64, 0x400000#64, 7#64⟩) ⟨0x200000#64, 0x400000#64, 7#64⟩ := by
  have before : BeforePaging blankClient := beforePaging_boot zeroedTables_blank
  have complete : (initPaging blankClient.toPagingState).2 = true := complete_blank.1
  generalize blankClient = c at *
  obtain ⟨tables, live, -⟩ := owned_initPaging before.managed before.mapped before.boot complete
  have writable := writableLinks_initPaging before.managed before.mapped before.boot complete
  have supervisor := supervisor_initPaging before.managed before.mapped before.boot complete
  have written : Writes (initPaging c.toPagingState).1 ⟨0x200000#64, 0x400000#64, 7#64⟩ :=
    writes_of_live tables live
  refine ⟨complete, written, fun grants => ?_⟩
  have decided := (grants_iff tables writable (by decide) written).mp grants
  have user := (decided.granted (by decide)).1 live.1
  exact Bool.noConfusion (supervisor.symm.trans user)

end M12
