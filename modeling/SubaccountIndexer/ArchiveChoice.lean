import SubaccountIndexer.Archive
import Mathlib.Data.List.Chain

/-! Which archive of an ICRC-3 ledger is asked for a block. A ledger reports the range of an
archive by its first index and by its `end`, which is the last index or the one after it. The
search accepts an archive whose `end` is the block in either reading, so with exclusive ends it
stops one archive too early at the first block of an archive that is listed after another. -/

namespace SubaccountIndexer.ArchiveChoice

inductive EndKind where
  | inclusive
  | exclusive
deriving DecidableEq

/-- The first index behind the range of an archive -/
def limit : EndKind → Icrc3ArchiveInfo → Nat
  | .inclusive, a => a.end + 1
  | .exclusive, a => a.end

/-- The archive holds the block of this index. -/
def Holds (kind : EndKind) (a : Icrc3ArchiveInfo) (index : Nat) : Prop :=
  a.start ≤ index ∧ index < limit kind a

/-- The archives of one ledger in any order: different canisters, no block in two of them -/
structure Archives (kind : EndKind) (archives : List Icrc3ArchiveInfo) : Prop where
  ordered : ∀ a ∈ archives, a.start ≤ a.end
  distinct : (archives.map Icrc3ArchiveInfo.canisterId).Nodup
  disjoint : archives.Pairwise fun a b => ∀ index, Holds kind a index → ¬ Holds kind b index

/-- Every archive starts where the one listed before it ends. -/
def Consecutive (kind : EndKind) (archives : List Icrc3ArchiveInfo) : Prop :=
  archives.IsChain fun a b => b.start = limit kind a

variable {kind : EndKind} {archives front back : List Icrc3ArchiveInfo} {a : Icrc3ArchiveInfo}
  {blockIndex : UInt64}

/-! ## Consecutive ranges -/

theorem end_le_limit (kind : EndKind) (a : Icrc3ArchiveInfo) : a.end ≤ limit kind a := by
  cases kind with
  | inclusive => exact Nat.le_succ _
  | exclusive => exact Nat.le_refl _

/-- The archives listed after one start behind its range. -/
theorem Consecutive.limit_le (ordered : ∀ b ∈ a :: archives, b.start ≤ b.end)
    (consecutive : Consecutive kind (a :: archives)) : ∀ b ∈ archives, limit kind a ≤ b.start := by
  induction archives generalizing a with
  | nil => simp
  | cons next rest ih =>
    obtain ⟨hnext, hrest⟩ := List.isChain_cons_cons.mp consecutive
    have hordered := ordered next (by simp)
    have hend := end_le_limit kind next
    intro b hb
    rcases List.mem_cons.mp hb with rfl | hb
    · exact hnext.ge
    · have hle := ih (fun b hb => ordered b (List.mem_cons_of_mem a hb)) hrest b hb
      omega

theorem Consecutive.pairwise (ordered : ∀ a ∈ archives, a.start ≤ a.end)
    (consecutive : Consecutive kind archives) :
    archives.Pairwise fun a b => limit kind a ≤ b.start := by
  induction archives with
  | nil => exact .nil
  | cons a rest ih =>
    exact List.pairwise_cons.mpr ⟨consecutive.limit_le ordered,
      ih (fun b hb => ordered b (List.mem_cons_of_mem a hb)) consecutive.of_cons⟩

/-- Consecutive archives have no block in common. -/
theorem Archives.of_consecutive (ordered : ∀ a ∈ archives, a.start ≤ a.end)
    (distinct : (archives.map Icrc3ArchiveInfo.canisterId).Nodup)
    (consecutive : Consecutive kind archives) : Archives kind archives where
  ordered := ordered
  distinct := distinct
  disjoint := (consecutive.pairwise ordered).imp fun hle index ha hb => by
    have hbehind := ha.2
    have hstart := hb.1
    omega

/-! ## The search -/

/-- The two tests of the loop -/
def accepts (blockIndex : UInt64) (a : Icrc3ArchiveInfo) : Bool :=
  let start := toU64Or 18446744073709551615 a.start
  let «end» := toU64Or 0 a.end
  (blockIndex ≥ start && blockIndex ≤ «end») || (blockIndex ≥ start && blockIndex < «end»)

theorem selectArchive_eq (blockIndex : UInt64) (archives : List Icrc3ArchiveInfo) :
    selectArchive blockIndex archives =
      (archives.find? (accepts blockIndex)).map Icrc3ArchiveInfo.canisterId := rfl

/-- The second test accepts nothing that the first does not; an `end` that is no `u64` counts
as 0. -/
theorem accepts_iff (ordered : a.start ≤ a.end) :
    accepts blockIndex a = true ↔
      a.start ≤ blockIndex.toNat ∧
        (blockIndex.toNat ≤ a.end ∧ a.end < 2 ^ 64 ∨ blockIndex.toNat = 0) := by
  have hlt := blockIndex.toNat_lt
  have htests : accepts blockIndex a = true ↔
      (toU64Or 18446744073709551615 a.start).toNat ≤ blockIndex.toNat ∧
        blockIndex.toNat ≤ (toU64Or 0 a.end).toNat := by
    simp only [accepts, Bool.or_eq_true, Bool.and_eq_true, decide_eq_true_eq, ge_iff_le,
      UInt64.le_iff_toNat_le, UInt64.lt_iff_toNat_lt]
    omega
  have hend : (toU64Or 0 a.end).toNat = if a.end < 2 ^ 64 then a.end else 0 := by
    unfold toU64Or
    split
    · rename_i h
      exact UInt64.toNat_ofNat_of_lt' h
    · rfl
  have hstart : (toU64Or 18446744073709551615 a.start).toNat =
      if a.start < 2 ^ 64 then a.start else 2 ^ 64 - 1 := by
    unfold toU64Or
    split
    · rename_i h
      exact UInt64.toNat_ofNat_of_lt' h
    · rfl
  rw [htests, hend, hstart]
  split <;> split <;> omega

/-- A search finds an element of a list without duplicates if and only if it accepts the element
and none in front of it. -/
theorem find?_map_iff {α β : Type} {p : α → Bool} {f : α → β} {front back : List α} {x : α}
    (nodup : ((front ++ x :: back).map f).Nodup) :
    ((front ++ x :: back).find? p).map f = some (f x) ↔ p x = true ∧ ∀ y ∈ front, ¬ p y = true := by
  rw [List.map_append, List.map_cons] at nodup
  have hfront : ∀ y ∈ front, f y ≠ f x := fun y hy h =>
    List.disjoint_of_nodup_append nodup (List.mem_map_of_mem hy) (h ▸ List.mem_cons_self)
  have hback : ∀ y ∈ back, f y ≠ f x := fun y hy h =>
    (List.nodup_cons.mp nodup.of_append_right).1 (h ▸ List.mem_map_of_mem hy)
  constructor
  · intro hfound
    rw [List.find?_append] at hfound
    cases hfirst : front.find? p with
    | some y =>
      rw [hfirst, Option.some_or, Option.map_some] at hfound
      exact absurd (Option.some.inj hfound) (hfront y (List.mem_of_find?_eq_some hfirst))
    | none =>
      refine ⟨?_, List.find?_eq_none.mp hfirst⟩
      by_contra hx
      rw [hfirst, Option.none_or, List.find?_cons_of_neg hx, Option.map_eq_some_iff] at hfound
      obtain ⟨y, hy, heq⟩ := hfound
      exact hback y (List.mem_of_find?_eq_some hy) heq
  · intro ⟨hx, hnone⟩
    rw [List.find?_append, List.find?_eq_none.mpr hnone, Option.none_or,
      List.find?_cons_of_pos hx, Option.map_some]

/-- An archive in front of the one that holds the block is accepted if and only if its end is
the block, which is where an exclusive range is read as an inclusive one. -/
theorem accepts_other {b : Icrc3ArchiveInfo} (ordered : b.start ≤ b.end)
    (other : ¬ Holds kind b blockIndex.toNat) :
    accepts blockIndex b = true ↔ kind = .exclusive ∧ b.end = blockIndex.toNat := by
  have hlt := blockIndex.toNat_lt
  rw [accepts_iff ordered]
  cases kind with
  | inclusive =>
    have hbehind : ¬ (b.start ≤ blockIndex.toNat ∧ blockIndex.toNat < b.end + 1) := other
    refine ⟨fun h => ?_, nofun⟩
    omega
  | exclusive =>
    have hbehind : ¬ (b.start ≤ blockIndex.toNat ∧ blockIndex.toNat < b.end) := other
    refine ⟨fun h => ⟨rfl, ?_⟩, fun h => ?_⟩
    · omega
    · have hend := h.2
      omega

/-- The search, over archives in any order -/
theorem selectArchive_iff (h : Archives kind (front ++ a :: back))
    (holds : Holds kind a blockIndex.toNat) :
    selectArchive blockIndex (front ++ a :: back) = some a.canisterId ↔
      (kind = .exclusive → ∀ b ∈ front, b.end ≠ blockIndex.toNat) ∧
        (a.end < 2 ^ 64 ∨ blockIndex.toNat = 0) := by
  have hbelow : blockIndex.toNat ≤ a.end := by
    have hlimit := holds.2
    cases kind with
    | inclusive => exact Nat.lt_succ_iff.mp hlimit
    | exclusive => exact Nat.le_of_lt hlimit
  have hstart := holds.1
  have hother : ∀ b ∈ front, (accepts blockIndex b = true ↔
      kind = .exclusive ∧ b.end = blockIndex.toNat) := by
    intro b hb
    refine accepts_other (h.ordered b (by simp [hb])) fun hholds => ?_
    exact (List.pairwise_append.mp h.disjoint).2.2 b hb a (by simp) _ hholds holds
  have hself : accepts blockIndex a = true ↔ a.end < 2 ^ 64 ∨ blockIndex.toNat = 0 := by
    rw [accepts_iff (h.ordered a (by simp))]
    omega
  rw [selectArchive_eq, find?_map_iff h.distinct, hself, and_comm]
  refine and_congr_left fun _ => ?_
  constructor
  · intro hnone hkind b hb hend
    exact hnone b hb ((hother b hb).mpr ⟨hkind, hend⟩)
  · intro hends b hb haccepts
    obtain ⟨hkind, hend⟩ := (hother b hb).mp haccepts
    exact hends hkind b hb hend

/-- Among consecutive archives an exclusive range in front ends at the block only where the
block is the first one of its archive. -/
theorem Consecutive.ends_iff (ordered : ∀ b ∈ front ++ a :: back, b.start ≤ b.end)
    (consecutive : Consecutive .exclusive (front ++ a :: back)) {index : Nat}
    (holds : Holds .exclusive a index) :
    (∀ b ∈ front, b.end ≠ index) ↔ (index = a.start → front = []) := by
  constructor
  · intro hends hfirst
    rcases List.eq_nil_or_concat' front with rfl | ⟨init, b, rfl⟩
    · rfl
    · rw [List.append_assoc] at consecutive
      have hnext : a.start = b.end := (List.isChain_append_cons_cons.mp consecutive).2.1
      exact absurd (hfirst.trans hnext).symm (hends b (by simp))
  · intro hempty b hb hend
    have hle : b.end ≤ a.start :=
      (List.pairwise_append.mp (consecutive.pairwise ordered)).2.2 b hb a (by simp)
    have hstart := holds.1
    rw [hempty (by omega)] at hb
    cases hb

/-- For archives in any order: the archive that holds the block is chosen if and only if no
exclusive range in front of it ends at the block, and its own end is a `u64`. Where every range
starts at the end of the one before, that is every block but the first ones of the archives
listed behind another. -/
theorem selectArchive_holder (h : Archives kind (front ++ a :: back))
    (holds : Holds kind a blockIndex.toNat) :
    (selectArchive blockIndex (front ++ a :: back) = some a.canisterId ↔
        (kind = .exclusive → ∀ b ∈ front, b.end ≠ blockIndex.toNat) ∧
          (a.end < 2 ^ 64 ∨ blockIndex.toNat = 0)) ∧
      (Consecutive kind (front ++ a :: back) →
        (selectArchive blockIndex (front ++ a :: back) = some a.canisterId ↔
          (kind = .exclusive → blockIndex.toNat = a.start → front = []) ∧
            (a.end < 2 ^ 64 ∨ blockIndex.toNat = 0))) := by
  refine ⟨selectArchive_iff h holds, fun consecutive => ?_⟩
  rw [selectArchive_iff h holds]
  refine and_congr_left fun _ => forall_congr' fun hkind => ?_
  subst hkind
  exact consecutive.ends_iff h.ordered holds

/-! Two archives of ten blocks each, in both ways to report their ends -/

open Examples

def inclusiveArchives : List Icrc3ArchiveInfo :=
  [{ canisterId := canister, start := 0, «end» := 9 },
    { canisterId := payer, start := 10, «end» := 19 }]

def exclusiveArchives : List Icrc3ArchiveInfo :=
  [{ canisterId := canister, start := 0, «end» := 10 },
    { canisterId := payer, start := 10, «end» := 20 }]

theorem inclusiveArchives_archives : Archives .inclusive inclusiveArchives :=
  .of_consecutive (by decide) (by decide) (.cons_cons rfl (.singleton _))

theorem exclusiveArchives_archives : Archives .exclusive exclusiveArchives :=
  .of_consecutive (by decide) (by decide) (.cons_cons rfl (.singleton _))

theorem selectArchive_holder_inclusive : selectArchive 10 inclusiveArchives = some payer := by
  have harchives : Archives .inclusive
      (inclusiveArchives.take 1 ++ { canisterId := payer, start := 10, «end» := 19 } :: []) :=
    inclusiveArchives_archives
  have hholds : Holds .inclusive { canisterId := payer, start := 10, «end» := 19 }
      (10 : UInt64).toNat := ⟨by decide, by decide⟩
  exact (selectArchive_holder harchives hholds).1.mpr ⟨nofun, by decide⟩

/-- The first block of the second archive is looked for in the first one. -/
theorem boundary_misses :
    Archives .exclusive exclusiveArchives ∧ Consecutive .exclusive exclusiveArchives ∧
      Holds .exclusive { canisterId := payer, start := 10, «end» := 20 } 10 ∧
      selectArchive 10 exclusiveArchives = some canister ∧ canister ≠ payer :=
  ⟨exclusiveArchives_archives, .cons_cons rfl (.singleton _), ⟨by decide, by decide⟩, by decide,
    by decide⟩

end SubaccountIndexer.ArchiveChoice
