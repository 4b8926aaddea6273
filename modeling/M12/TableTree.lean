/-
This file is about the tree of page tables in memory.

A node is the PML4, a PDPT or a PD, named by the indices that lead to it; it is
live when every entry on the way is present. Reading a PD entry through live
nodes gives the leaf entry of a 2 MB region, and zero stands for a region whose
PD does not exist yet. Tables are only ever changed one entry at a time, so the
file says what one such change does to the tree: nothing when it misses the live
tables, one new empty node when it links a zeroed page, one leaf when it writes
a PD. In the first two cases every leaf entry stays as it was.
-/

import M12.PageEntries

namespace M12

open ByteMemory

/-! ### Nodes -/

/-- A table of the tree, named by the indices that lead to it. -/
inductive Node where
  | pml4
  | pdpt (i : Nat)
  | pd (i j : Nat)
deriving DecidableEq

/-- The page of a node, read through the entries above it. -/
def nodePage (ram : Memory) (root : BitVec 64) : Node → BitVec 64
  | .pml4 => root
  | .pdpt i => tableOf (WordTable.read ram root i)
  | .pd i j => tableOf (WordTable.read ram (tableOf (WordTable.read ram root i)) j)

/-- Entry `e` of a node. -/
def nodeEntry (ram : Memory) (root : BitVec 64) (n : Node) (e : Nat) : BitVec 64 :=
  WordTable.read ram (nodePage ram root n) e

/-- Every entry on the way to the node is present. -/
def Live (ram : Memory) (root : BitVec 64) : Node → Prop
  | .pml4 => True
  | .pdpt i => i < 512 ∧ hasFlag (nodeEntry ram root .pml4 i) pagePresent = true
  | .pd i j => (i < 512 ∧ hasFlag (nodeEntry ram root .pml4 i) pagePresent = true) ∧
      j < 512 ∧ hasFlag (nodeEntry ram root (.pdpt i) j) pagePresent = true

instance (ram : Memory) (root : BitVec 64) (n : Node) : Decidable (Live ram root n) :=
  match n with
  | .pml4 => inferInstanceAs (Decidable True)
  | .pdpt _ => inferInstanceAs (Decidable (_ ∧ _))
  | .pd _ _ => inferInstanceAs (Decidable ((_ ∧ _) ∧ _ ∧ _))

/-- The entry of the 2 MB region `(i, j, k)`, zero where there is no PD. -/
def leafEntry (ram : Memory) (root : BitVec 64) (i j k : Nat) : BitVec 64 :=
  if Live ram root (.pd i j) then nodeEntry ram root (.pd i j) k else 0#64

theorem live_pd {ram : Memory} {root : BitVec 64} {i j : Nat} :
    Live ram root (.pd i j) ↔
      Live ram root (.pdpt i) ∧ j < 512 ∧
        hasFlag (nodeEntry ram root (.pdpt i) j) pagePresent = true := Iff.rfl

theorem leafEntry_of_live {ram : Memory} {root : BitVec 64} {i j : Nat}
    (live : Live ram root (.pd i j)) (k : Nat) :
    leafEntry ram root i j k = nodeEntry ram root (.pd i j) k := if_pos live

theorem leafEntry_of_not_live {ram : Memory} {root : BitVec 64} {i j : Nat}
    (dead : ¬ Live ram root (.pd i j)) (k : Nat) : leafEntry ram root i j k = 0#64 := if_neg dead

/-! ### One entry of one live table changes -/

/-- Of all the entries of live tables, `next` changes at most entry `slot` of `target`. -/
def ChangesOnly (ram next : Memory) (root : BitVec 64) (target : Node) (slot : Nat)
    (value : BitVec 64) : Prop :=
  ∀ n, Live ram root n → ∀ e < 512, WordTable.read next (nodePage ram root n) e =
    if n = target ∧ e = slot then value else nodeEntry ram root n e

/-- No entry of a live table changes. -/
def ChangesNothing (ram next : Memory) (root : BitVec 64) : Prop :=
  ∀ n, Live ram root n → ∀ e < 512,
    WordTable.read next (nodePage ram root n) e = nodeEntry ram root n e

section Unchanged

variable {ram next : Memory} {root : BitVec 64} (same : ChangesNothing ram next root)
include same

theorem nodePage_unchanged {n : Node} (live : Live ram root n) :
    nodePage next root n = nodePage ram root n := by
  cases n with
  | pml4 => rfl
  | pdpt i => exact congrArg tableOf (same .pml4 trivial i live.1)
  | pd i j =>
    have above := same .pml4 trivial i live.1.1
    have here := same (.pdpt i) live.1 j live.2.1
    simp only [nodePage, nodeEntry] at above here ⊢
    rw [above, here]

theorem live_unchanged (n : Node) : Live next root n ↔ Live ram root n := by
  have top (i : Nat) : Live next root (.pdpt i) ↔ Live ram root (.pdpt i) :=
    and_congr_right fun inside => by
      rw [show nodeEntry next root .pml4 i = nodeEntry ram root .pml4 i from
        same .pml4 trivial i inside]
  cases n with
  | pml4 => exact Iff.rfl
  | pdpt i => exact top i
  | pd i j =>
    rw [live_pd, live_pd, top i]
    refine and_congr_right fun live => and_congr_right fun inside => ?_
    rw [nodeEntry, nodePage_unchanged same live, same (.pdpt i) live j inside]

theorem leafEntry_unchanged (i j : Nat) {k : Nat} (inside : k < 512) :
    leafEntry next root i j k = leafEntry ram root i j k := by
  by_cases live : Live ram root (.pd i j)
  · rw [leafEntry_of_live live, leafEntry_of_live ((live_unchanged same _).mpr live), nodeEntry,
      nodePage_unchanged same live, same _ live k inside]
  · rw [leafEntry_of_not_live live,
      leafEntry_of_not_live fun liveNext => live ((live_unchanged same _).mp liveNext)]

end Unchanged

section LinkPdpt

/- A zeroed page is linked into an absent slot of the PML4. -/
variable {ram next : Memory} {root : BitVec 64} {slot : Nat} {value : BitVec 64}
  (changes : ChangesOnly ram next root .pml4 slot value) (inside : slot < 512)
  (absent : hasFlag (nodeEntry ram root .pml4 slot) pagePresent = false)
  (present : hasFlag value pagePresent = true)
  (zeroed : ∀ e < 512, WordTable.read next (tableOf value) e = 0#64)
include changes

theorem read_root_linked {i : Nat} (iInside : i < 512) :
    WordTable.read next root i = if i = slot then value else nodeEntry ram root .pml4 i := by
  have entry := changes .pml4 trivial i iInside
  rw [nodePage] at entry
  simpa using entry

include absent

omit changes in
theorem ne_slot_of_live {i : Nat} (live : Live ram root (.pdpt i)) : i ≠ slot := by
  rintro rfl
  rw [live.2] at absent
  exact Bool.noConfusion absent

theorem nodePage_linkPdpt {n : Node} (live : Live ram root n) :
    nodePage next root n = nodePage ram root n := by
  have top {i : Nat} (liveTop : Live ram root (.pdpt i)) :
      nodePage next root (.pdpt i) = nodePage ram root (.pdpt i) := by
    rw [nodePage, read_root_linked changes liveTop.1,
      if_neg (ne_slot_of_live absent liveTop)]
    rfl
  cases n with
  | pml4 => rfl
  | pdpt i => exact top live
  | pd i j =>
    have here := changes (.pdpt i) live.1 j live.2.1
    rw [if_neg (fun both => Node.noConfusion both.1)] at here
    show tableOf (WordTable.read next (nodePage next root (.pdpt i)) j) = _
    rw [top live.1, here]
    rfl

include inside

omit absent in
theorem nodePage_linked_pdpt : nodePage next root (.pdpt slot) = tableOf value := by
  rw [nodePage, read_root_linked changes inside, if_pos rfl]

include present zeroed

theorem live_linkPdpt (n : Node) :
    Live next root n ↔ Live ram root n ∨ n = .pdpt slot := by
  have top (i : Nat) :
      Live next root (.pdpt i) ↔ Live ram root (.pdpt i) ∨ i = slot := by
    constructor
    · rintro ⟨iInside, held⟩
      rw [nodeEntry, nodePage, read_root_linked changes iInside] at held
      by_cases same : i = slot
      · exact Or.inr same
      · rw [if_neg same] at held
        exact Or.inl ⟨iInside, held⟩
    · rintro (live | rfl)
      · refine ⟨live.1, ?_⟩
        rw [nodeEntry, nodePage, read_root_linked changes live.1,
          if_neg (ne_slot_of_live absent live)]
        exact live.2
      · refine ⟨inside, ?_⟩
        rwa [nodeEntry, nodePage, read_root_linked changes inside, if_pos rfl]
  have below (i j : Nat) (live : Live ram root (.pdpt i)) (jInside : j < 512) :
      nodeEntry next root (.pdpt i) j = nodeEntry ram root (.pdpt i) j := by
    rw [nodeEntry, nodePage_linkPdpt changes absent live, changes _ live j jInside,
      if_neg (fun both => Node.noConfusion both.1)]
  cases n with
  | pml4 => exact ⟨fun _ => Or.inl trivial, fun _ => trivial⟩
  | pdpt i =>
    rw [top i, Node.pdpt.injEq]
  | pd i j =>
    rw [live_pd, top i]
    constructor
    · rintro ⟨live | rfl, jInside, held⟩
      · rw [below i j live jInside] at held
        exact Or.inl ⟨live, jInside, held⟩
      · rw [nodeEntry, nodePage_linked_pdpt changes inside, zeroed j jInside] at held
        exact absurd held (by decide)
    · rintro (live | same)
      · refine ⟨Or.inl live.1, live.2.1, ?_⟩
        rw [below i j live.1 live.2.1]
        exact live.2.2
      · exact Node.noConfusion same

theorem leafEntry_linkPdpt (i j : Nat) {k : Nat} (kInside : k < 512) :
    leafEntry next root i j k = leafEntry ram root i j k := by
  by_cases live : Live ram root (.pd i j)
  · rw [leafEntry_of_live live, leafEntry_of_live
      ((live_linkPdpt changes inside absent present zeroed _).mpr (Or.inl live)), nodeEntry,
      nodePage_linkPdpt changes absent live, changes _ live k kInside,
      if_neg (fun both => Node.noConfusion both.1)]
  · rw [leafEntry_of_not_live live, leafEntry_of_not_live fun liveNext => ?_]
    rcases (live_linkPdpt changes inside absent present zeroed _).mp liveNext with old | new
    · exact live old
    · exact Node.noConfusion new

end LinkPdpt

section BelowRoot

/- An entry of a live table other than the PML4 is written. -/
variable {ram next : Memory} {root : BitVec 64} {target : Node} {slot : Nat} {value : BitVec 64}
  (changes : ChangesOnly ram next root target slot value) (lower : target ≠ .pml4)
include changes lower

theorem rootEntry_belowRoot {i : Nat} (iInside : i < 512) :
    nodeEntry next root .pml4 i = nodeEntry ram root .pml4 i := by
  have entry := changes .pml4 trivial i iInside
  rw [if_neg (fun both => lower both.1.symm)] at entry
  exact entry

theorem nodePage_pdpt_belowRoot {i : Nat} (iInside : i < 512) :
    nodePage next root (.pdpt i) = nodePage ram root (.pdpt i) :=
  congrArg tableOf (rootEntry_belowRoot changes lower iInside)

theorem live_pdpt_belowRoot (i : Nat) : Live next root (.pdpt i) ↔ Live ram root (.pdpt i) :=
  and_congr_right fun iInside => by rw [rootEntry_belowRoot changes lower iInside]

end BelowRoot

section LinkPd

/- A zeroed page is linked into an absent slot of a live PDPT. -/
variable {ram next : Memory} {root : BitVec 64} {parent slot : Nat} {value : BitVec 64}
  (changes : ChangesOnly ram next root (.pdpt parent) slot value)
  (above : Live ram root (.pdpt parent)) (inside : slot < 512)
  (absent : hasFlag (nodeEntry ram root (.pdpt parent) slot) pagePresent = false)
  (present : hasFlag value pagePresent = true)
  (zeroed : ∀ e < 512, WordTable.read next (tableOf value) e = 0#64)
include changes

theorem nodePage_pdpt_linkPd {i : Nat} (iInside : i < 512) :
    nodePage next root (.pdpt i) = nodePage ram root (.pdpt i) :=
  nodePage_pdpt_belowRoot changes Node.noConfusion iInside

theorem live_pdpt_linkPd (i : Nat) : Live next root (.pdpt i) ↔ Live ram root (.pdpt i) :=
  live_pdpt_belowRoot changes Node.noConfusion i

theorem nodeEntry_pdpt_linkPd {i j : Nat} (live : Live ram root (.pdpt i)) (jInside : j < 512) :
    nodeEntry next root (.pdpt i) j =
      if i = parent ∧ j = slot then value else nodeEntry ram root (.pdpt i) j := by
  rw [nodeEntry, nodePage_pdpt_linkPd changes live.1, changes _ live j jInside]
  simp only [Node.pdpt.injEq]

include absent

theorem nodePage_linkPd {n : Node} (live : Live ram root n) :
    nodePage next root n = nodePage ram root n := by
  cases n with
  | pml4 => rfl
  | pdpt i => exact nodePage_pdpt_linkPd changes live.1
  | pd i j =>
    have different : ¬ (i = parent ∧ j = slot) := by
      rintro ⟨rfl, rfl⟩
      rw [live.2.2] at absent
      exact Bool.noConfusion absent
    show tableOf (nodeEntry next root (.pdpt i) j) = _
    rw [nodeEntry_pdpt_linkPd changes live.1 live.2.1, if_neg different]
    rfl

include above inside

omit absent in
theorem nodePage_linked_pd : nodePage next root (.pd parent slot) = tableOf value := by
  show tableOf (nodeEntry next root (.pdpt parent) slot) = _
  rw [nodeEntry_pdpt_linkPd changes above inside, if_pos ⟨rfl, rfl⟩]

include present

theorem live_linkPd (n : Node) :
    Live next root n ↔ Live ram root n ∨ n = .pd parent slot := by
  cases n with
  | pml4 => exact ⟨fun _ => Or.inl trivial, fun _ => trivial⟩
  | pdpt i =>
    rw [live_pdpt_linkPd changes]
    exact ⟨Or.inl, fun cases => cases.resolve_right fun same => Node.noConfusion same⟩
  | pd i j =>
    rw [live_pd, live_pdpt_linkPd changes, Node.pd.injEq]
    constructor
    · rintro ⟨live, jInside, held⟩
      rw [nodeEntry_pdpt_linkPd changes live jInside] at held
      split_ifs at held with same
      · exact Or.inr same
      · exact Or.inl ⟨live, jInside, held⟩
    · rintro (live | ⟨rfl, rfl⟩)
      · refine ⟨live.1, live.2.1, ?_⟩
        rw [nodeEntry_pdpt_linkPd changes live.1 live.2.1]
        split_ifs
        · exact present
        · exact live.2.2
      · refine ⟨above, inside, ?_⟩
        rw [nodeEntry_pdpt_linkPd changes above inside, if_pos ⟨rfl, rfl⟩]
        exact present

include zeroed

theorem leafEntry_linkPd (i j : Nat) {k : Nat} (kInside : k < 512) :
    leafEntry next root i j k = leafEntry ram root i j k := by
  by_cases live : Live ram root (.pd i j)
  · rw [leafEntry_of_live live, leafEntry_of_live
      ((live_linkPd changes above inside absent present _).mpr (Or.inl live)), nodeEntry,
      nodePage_linkPd changes absent live, changes _ live k kInside,
      if_neg (fun both => Node.noConfusion both.1)]
  · rw [leafEntry_of_not_live live]
    by_cases liveNext : Live next root (.pd i j)
    · have new := ((live_linkPd changes above inside absent present _).mp liveNext).resolve_left
        live
      rw [leafEntry_of_live liveNext, nodeEntry, new, nodePage_linked_pd changes above inside,
        zeroed k kInside]
    · exact leafEntry_of_not_live liveNext k

end LinkPd

section WriteLeaf

/- An entry of a live PD is written. -/
variable {ram next : Memory} {root : BitVec 64} {a b c : Nat} {value : BitVec 64}
  (changes : ChangesOnly ram next root (.pd a b) c value)
include changes

theorem nodePage_writeLeaf {n : Node} (live : Live ram root n) :
    nodePage next root n = nodePage ram root n := by
  have top {i : Nat} (iInside : i < 512) :
      nodePage next root (.pdpt i) = nodePage ram root (.pdpt i) :=
    nodePage_pdpt_belowRoot changes Node.noConfusion iInside
  cases n with
  | pml4 => rfl
  | pdpt i => exact top live.1
  | pd i j =>
    have here := changes (.pdpt i) live.1 j live.2.1
    rw [if_neg (fun both => Node.noConfusion both.1)] at here
    show tableOf (WordTable.read next (nodePage next root (.pdpt i)) j) = _
    rw [top live.1.1, here]
    rfl

theorem live_writeLeaf (n : Node) : Live next root n ↔ Live ram root n := by
  have top (i : Nat) : Live next root (.pdpt i) ↔ Live ram root (.pdpt i) :=
    live_pdpt_belowRoot changes Node.noConfusion i
  cases n with
  | pml4 => exact Iff.rfl
  | pdpt i => exact top i
  | pd i j =>
    rw [live_pd, live_pd, top i]
    refine and_congr_right fun live => and_congr_right fun jInside => ?_
    have here := changes (.pdpt i) live j jInside
    rw [if_neg (fun both => Node.noConfusion both.1)] at here
    rw [nodeEntry, nodePage_writeLeaf changes live, here]

theorem leafEntry_writeLeaf (live : Live ram root (.pd a b)) (i j : Nat) {k : Nat}
    (kInside : k < 512) :
    leafEntry next root i j k =
      if i = a ∧ j = b ∧ k = c then value else leafEntry ram root i j k := by
  by_cases liveHere : Live ram root (.pd i j)
  · rw [leafEntry_of_live liveHere, leafEntry_of_live ((live_writeLeaf changes _).mpr liveHere),
      nodeEntry, nodePage_writeLeaf changes liveHere, changes _ liveHere k kInside]
    simp only [Node.pd.injEq, and_assoc]
  · have different : ¬ (i = a ∧ j = b ∧ k = c) := by
      rintro ⟨rfl, rfl, -⟩
      exact liveHere live
    rw [leafEntry_of_not_live liveHere, if_neg different,
      leafEntry_of_not_live fun liveNext => liveHere ((live_writeLeaf changes _).mp liveNext)]

end WriteLeaf

/-! ### Linking in general -/

/-- Entry `index` of the first node leads to the second. -/
inductive Below : Node → Nat → Node → Prop
  | pdpt (i : Nat) : Below .pml4 i (.pdpt i)
  | pd (i j : Nat) : Below (.pdpt i) j (.pd i j)

theorem nodePage_below {parent child : Node} {index : Nat} (below : Below parent index child)
    (ram : Memory) (root : BitVec 64) :
    nodePage ram root child = tableOf (nodeEntry ram root parent index) := by
  cases below <;> rfl

theorem live_below {parent child : Node} {index : Nat} (below : Below parent index child)
    (ram : Memory) (root : BitVec 64) :
    Live ram root child ↔ Live ram root parent ∧ index < 512 ∧
      hasFlag (nodeEntry ram root parent index) pagePresent = true := by
  cases below with
  | pdpt i => exact (true_and _).symm.to_iff
  | pd i j => exact Iff.rfl

/-- The tree gains one node with the page and the link `value` gives, and is otherwise as it
was. -/
structure Linked (ram next : Memory) (root : BitVec 64) (child : Node) (value : BitVec 64) :
    Prop where
  live : ∀ n, Live next root n ↔ Live ram root n ∨ n = child
  page : nodePage next root child = tableOf value
  pages : ∀ n, Live ram root n → nodePage next root n = nodePage ram root n
  links : ∀ i j, Live next root (.pd i j) → nodeEntry next root (.pdpt i) j =
    if Node.pd i j = child then value else nodeEntry ram root (.pdpt i) j
  leaves : ∀ i j k, k < 512 → leafEntry next root i j k = leafEntry ram root i j k

/-- Linking a zeroed page into an absent slot of a live table adds that node. -/
theorem linked_of_changesOnly {ram next : Memory} {root : BitVec 64} {parent child : Node}
    {index : Nat} {value : BitVec 64} (below : Below parent index child)
    (changes : ChangesOnly ram next root parent index value) (above : Live ram root parent)
    (inside : index < 512) (absent : hasFlag (nodeEntry ram root parent index) pagePresent = false)
    (present : hasFlag value pagePresent = true)
    (zeroed : ∀ e < 512, WordTable.read next (tableOf value) e = 0#64) :
    Linked ram next root child value := by
  cases below with
  | pdpt i =>
    have live := live_linkPdpt changes inside absent present zeroed
    refine ⟨live, nodePage_linked_pdpt changes inside,
      fun n => nodePage_linkPdpt changes absent, fun a b liveNext => ?_,
      fun a b k => leafEntry_linkPdpt changes inside absent present zeroed a b⟩
    have old : Live ram root (.pd a b) :=
      ((live _).mp liveNext).resolve_right fun same => Node.noConfusion same
    have oldParent : Live ram root (.pdpt a) := old.1
    rw [if_neg (fun same => Node.noConfusion same), nodeEntry,
      nodePage_linkPdpt changes absent oldParent, changes _ oldParent b old.2.1,
      if_neg (fun both => Node.noConfusion both.1)]
  | pd i j =>
    have live := live_linkPd changes above inside absent present
    refine ⟨live, nodePage_linked_pd changes above inside,
      fun n => nodePage_linkPd changes absent, fun a b liveNext => ?_,
      fun a b k => leafEntry_linkPd changes above inside absent present zeroed a b⟩
    have liveParent : Live ram root (.pdpt a) := (live_pdpt_linkPd changes a).mp liveNext.1
    rw [nodeEntry_pdpt_linkPd changes liveParent liveNext.2.1]
    simp only [Node.pd.injEq]

end M12
