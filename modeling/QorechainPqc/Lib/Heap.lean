import Mathlib.Data.List.Nodup
import Mathlib.Logic.Function.Basic

/-!
# A heap of blocks

`Heap` is what `malloc` and `free` manage: the live blocks by their addresses, and what was in each block that has been
given back. `clear` and `free` of what is not a live block are undefined behaviour.

`Writes` is what a callee does that keeps to some blocks; `Grows` compares a heap with an earlier one, of which nothing
has changed but that there are some more blocks. Growing composes (`Grows.trans`), and undoes itself block by block
(`Grows.free`).

Two heaps may lie `beside` one another, if they are `Apart`; what is done in one of them is done in both together
(`put_beside`, `Writes.beside`, `remove_beside`). `Parts` divides a heap up: a part may be replaced
(`Parts.replace`), or handed over to another one (`Parts.merge`).
-/

namespace Program

/-- The live blocks, and the contents of the blocks that were given back. -/
structure Heap where
  block : Nat → Option (List UInt8)
  freed : List (List UInt8)

namespace Heap

/-- The size of the block at an address, if there is one. -/
def size (h : Heap) (p : Nat) : Option Nat := (h.block p).map List.length

/-- There is a block at `p` with at least `n` bytes. -/
def Room (h : Heap) (p n : Nat) : Prop := ∃ m, h.size p = some m ∧ n ≤ m

/-- Put a block at an address. -/
def put (h : Heap) (p : Nat) (b : List UInt8) : Heap := { h with block := Function.update h.block p (some b) }

/-- Overwrite the first `n` bytes of the block at `p` by zeros. -/
def clear (h : Heap) (p n : Nat) : Option Heap := do
  let b ← h.block p
  if n ≤ b.length then some (h.put p (List.replicate n 0 ++ b.drop n)) else none

/-- Give the block at `p` back. -/
def free (h : Heap) (p : Nat) : Option Heap := do
  let b ← h.block p
  return ⟨Function.update h.block p none, b :: h.freed⟩

variable {h h' h'' : Heap} {p q n : Nat} {b : List UInt8} {l l' : List Nat}

@[simp] theorem block_put_self : (h.put p b).block p = some b := Function.update_self ..

theorem block_put_of_ne (hq : q ≠ p) : (h.put p b).block q = h.block q := Function.update_of_ne hq ..

theorem size_eq_none : h.size p = none ↔ h.block p = none := Option.map_eq_none_iff

theorem block_of_size (hs : h.size p = some n) : ∃ b, h.block p = some b ∧ b.length = n := Option.map_eq_some_iff.mp hs

/-! ## Writing -/

/-- The blocks at the addresses `l` may have new contents; nothing else has changed. -/
structure Writes (h h' : Heap) (l : List Nat) : Prop where
  size : ∀ p, h'.size p = h.size p
  frame : ∀ p ∉ l, h'.block p = h.block p
  freed : h'.freed = h.freed

theorem Writes.refl (h : Heap) (l : List Nat) : h.Writes h l := ⟨fun _ => rfl, fun _ _ => rfl, rfl⟩

/-! ## Growing -/

/-- Beside the blocks that there were, there are those at the addresses `l`. -/
structure Grows (h h' : Heap) (l : List Nat) : Prop where
  nodup : l.Nodup
  fresh : ∀ p ∈ l, h.block p = none
  live : ∀ p ∈ l, h'.block p ≠ none
  frame : ∀ p ∉ l, h'.block p = h.block p

theorem Grows.refl (h : Heap) : h.Grows h [] :=
  ⟨List.nodup_nil, fun _ hp => absurd hp List.not_mem_nil, fun _ hp => absurd hp List.not_mem_nil, fun _ _ => rfl⟩

/-- A block that there was is none of the new ones, and is as it was. -/
theorem Grows.block (hg : h.Grows h' l) (hp : h.block p ≠ none) : p ∉ l ∧ h'.block p = h.block p := by
  have hnot : p ∉ l := fun hmem => hp (hg.fresh p hmem)
  exact ⟨hnot, hg.frame p hnot⟩

/-- **`malloc`.** -/
theorem Grows.alloc (hg : h.Grows h' l) (hp : h'.block p = none) : h.Grows (h'.put p b) (l ++ [p]) := by
  have hnot : p ∉ l := fun hmem => hg.live p hmem hp
  refine ⟨?_, ?_, ?_, ?_⟩
  · exact hg.nodup.append (List.nodup_singleton p) (List.disjoint_singleton.mpr hnot)
  · intro q hq
    rcases List.mem_append.mp hq with hq | hq
    · exact hg.fresh q hq
    · obtain rfl := List.mem_singleton.mp hq
      exact (hg.frame q hnot).symm.trans hp
  · intro q hq
    by_cases hqp : q = p
    · subst hqp
      simp
    · rw [block_put_of_ne hqp]
      rcases List.mem_append.mp hq with hq | hq
      · exact hg.live q hq
      · exact absurd (List.mem_singleton.mp hq) hqp
  · intro q hq
    rw [List.mem_append, List.mem_singleton, not_or] at hq
    rw [block_put_of_ne hq.2]
    exact hg.frame q hq.1

/-- **Writing** to the new blocks alone. -/
theorem Grows.writes (hg : h.Grows h' l) (hw : h'.Writes h'' l') (hsub : ∀ p ∈ l', p ∈ l) : h.Grows h'' l := by
  refine ⟨hg.nodup, hg.fresh, fun p hp => ?_, fun p hp => ?_⟩
  · intro hnone
    have hsize : h'.size p = none := (hw.size p).symm.trans (size_eq_none.mpr hnone)
    exact hg.live p hp (size_eq_none.mp hsize)
  · exact (hw.frame p fun hmem => hp (hsub p hmem)).trans (hg.frame p hp)

/-- **Growing twice.** -/
theorem Grows.trans (hg : h.Grows h' l) (hg' : h'.Grows h'' l') : h.Grows h'' (l' ++ l) := by
  have hapart : ∀ p ∈ l, p ∉ l' := fun p hp => (hg'.block (hg.live p hp)).1
  refine ⟨?_, ?_, ?_, ?_⟩
  · exact hg'.nodup.append hg.nodup fun p hp' hp => hapart p hp hp'
  · intro p hp
    rcases List.mem_append.mp hp with hp | hp
    · have hnot : p ∉ l := fun hmem => hapart p hmem hp
      exact (hg.frame p hnot).symm.trans (hg'.fresh p hp)
    · exact hg.fresh p hp
  · intro p hp
    rcases List.mem_append.mp hp with hp | hp
    · exact hg'.live p hp
    · rw [hg'.frame p (hapart p hp)]
      exact hg.live p hp
  · intro p hp
    rw [List.mem_append, not_or] at hp
    exact (hg'.frame p hp.1).trans (hg.frame p hp.2)

/-- The order of the new blocks does not matter. -/
theorem Grows.perm (hg : h.Grows h' l) (hl : l.Perm l') : h.Grows h' l' :=
  ⟨hl.nodup_iff.mp hg.nodup, fun p hp => hg.fresh p (hl.mem_iff.mpr hp), fun p hp => hg.live p (hl.mem_iff.mpr hp),
    fun p hp => hg.frame p fun hmem => hp (hl.mem_iff.mp hmem)⟩

/-! ## Giving back -/

/-- Clearing `n` bytes of a block with room for them, and giving it back. -/
theorem clear_free (hb : h.block p = some b) (hn : n ≤ b.length) : (h.clear p n).bind (fun h => h.free p) =
    some ⟨Function.update h.block p none, (List.replicate n 0 ++ b.drop n) :: h.freed⟩ := by
  have hclear : h.clear p n = some (h.put p (List.replicate n 0 ++ b.drop n)) := by
    simp only [clear, hb, Option.bind_eq_bind, Option.bind_some, if_pos hn]
  rw [hclear, Option.bind_some, free, block_put_self]
  simp only [put, Function.update_idem, Option.bind_eq_bind, Option.bind_some, Option.pure_def]

/-- **`free`** takes one of the new blocks away. -/
theorem Grows.free (hg : h.Grows h' (p :: l)) (fs : List (List UInt8)) :
    h.Grows ⟨Function.update h'.block p none, fs⟩ l := by
  obtain ⟨hp, hl⟩ := List.nodup_cons.mp hg.nodup
  have hne : ∀ q ∈ l, q ≠ p := fun q hq hqp => hp (hqp ▸ hq)
  refine ⟨hl, fun q hq => hg.fresh q (List.mem_cons_of_mem p hq), fun q hq => ?_, fun q hq => ?_⟩
  · show Function.update h'.block p none q ≠ none
    rw [Function.update_of_ne (hne q hq)]
    exact hg.live q (List.mem_cons_of_mem p hq)
  · show Function.update h'.block p none q = h.block q
    by_cases hqp : q = p
    · subst hqp
      rw [Function.update_self]
      exact (hg.fresh q List.mem_cons_self).symm
    · rw [Function.update_of_ne hqp]
      exact hg.frame q fun hmem => (List.mem_cons.mp hmem).elim hqp hq

/-! ## Side by side -/

/-- No block. -/
def empty : Heap := ⟨fun _ => none, []⟩

/-- No address has a block in both heaps. -/
def Apart (h g : Heap) : Prop := ∀ p, h.block p = none ∨ g.block p = none

/-- The blocks of both heaps. -/
def beside (h g : Heap) : Heap := ⟨fun p => (h.block p).or (g.block p), h.freed ++ g.freed⟩

variable {g k : Heap}

theorem block_beside (hb : h.block p = some b) : (h.beside g).block p = some b := by
  simp only [beside, hb, Option.some_or]

theorem block_beside_eq_none : (h.beside g).block p = none ↔ h.block p = none ∧ g.block p = none :=
  Option.or_eq_none_iff

theorem size_beside : (h.beside g).size p = (h.size p).or (g.size p) := Option.map_or ..

theorem Room.beside (hr : h.Room p n) : (h.beside g).Room p n := by
  obtain ⟨m, hm, hn⟩ := hr
  refine ⟨m, ?_, hn⟩
  rw [size_beside, hm, Option.some_or]

theorem Room.block_ne (hr : h.Room p n) : h.block p ≠ none := by
  obtain ⟨m, hm, -⟩ := hr
  intro hnone
  rw [size_eq_none.mpr hnone] at hm
  cases hm

theorem Apart.of_size (ha : h.Apart g) (hs : ∀ p, h'.block p = none ↔ h.block p = none) : h'.Apart g :=
  fun p => (ha p).imp_left (hs p).mpr

/-- `malloc`, where there is more. -/
theorem put_beside : (h.beside g).put p b = (h.put p b).beside g := by
  have hblock : ((h.beside g).put p b).block = ((h.put p b).beside g).block := by
    funext q
    by_cases hq : q = p
    · subst hq
      rw [block_put_self, block_beside block_put_self]
    · rw [block_put_of_ne hq]
      simp only [beside, block_put_of_ne hq]
  exact congrArg (Heap.mk · (h.freed ++ g.freed)) hblock

theorem Apart.put (ha : h.Apart g) (hp : g.block p = none) : (h.put p b).Apart g := by
  intro q
  by_cases hq : q = p
  · exact .inr (hq ▸ hp)
  · rw [block_put_of_ne hq]
    exact ha q

/-- The blocks before an allocation. -/
theorem Apart.of_put (ha : (h.put p b).Apart g) (hp : h.block p = none) : h.Apart g ∧ g.block p = none := by
  constructor
  · intro q
    by_cases hq : q = p
    · exact .inl (hq ▸ hp)
    · rw [← block_put_of_ne hq (b := b)]
      exact ha q
  · refine (ha p).resolve_left ?_
    rw [block_put_self]
    exact Option.some_ne_none b

theorem Apart.remove {fs : List (List UInt8)} (ha : h.Apart g) :
    (⟨Function.update h.block p none, fs⟩ : Heap).Apart g := by
  intro q
  by_cases hq : q = p
  · exact .inl (hq ▸ Function.update_self ..)
  · exact (ha q).imp_left fun hn => (Function.update_of_ne hq ..).trans hn

/-- `free`, where there is more. -/
theorem remove_beside {fs : List (List UInt8)} (hp : g.block p = none) :
    (⟨Function.update h.block p none, fs⟩ : Heap).beside g =
      ⟨Function.update (h.beside g).block p none, fs ++ g.freed⟩ := by
  refine congrArg (Heap.mk · (fs ++ g.freed)) (funext fun q => ?_)
  by_cases hq : q = p
  · subst hq
    simp only [Function.update_self, hp, Option.none_or]
  · simp only [Function.update_of_ne hq, beside]

theorem Writes.block_eq_none (hw : h.Writes h' l) : h'.block p = none ↔ h.block p = none := by
  rw [← size_eq_none, hw.size, size_eq_none]

/-- Writing, where there is more. -/
theorem Writes.beside (hw : h.Writes h' l) : (h.beside g).Writes (h'.beside g) l where
  size p := by rw [size_beside, size_beside, hw.size]
  frame p hp := congrArg (Option.or · (g.block p)) (hw.frame p hp)
  freed := congrArg (· ++ g.freed) hw.freed

/-- Writing to the blocks of a part. -/
theorem Writes.of_beside (hw : (h.beside g).Writes k l) (hl : ∀ p ∈ l, h.block p ≠ none) :
    ∃ h', h.Writes h' l ∧ k = h'.beside g := by
  have hsize (p : Nat) (hp : h.block p ≠ none) : k.size p = h.size p := by
    obtain ⟨n, hn⟩ := Option.ne_none_iff_exists'.mp (mt size_eq_none.mp hp)
    rw [hw.size, size_beside, hn, Option.some_or]
  let h' : Heap := ⟨fun p => if h.block p = none then none else k.block p, h.freed⟩
  have hnone {p : Nat} (hp : h.block p = none) : h'.block p = none := if_pos hp
  have hsome {p : Nat} (hp : h.block p ≠ none) : h'.block p = k.block p := if_neg hp
  refine ⟨h', ⟨fun p => ?_, fun p hp => ?_, rfl⟩, ?_⟩
  · by_cases hp : h.block p = none
    · rw [size_eq_none.mpr hp, size_eq_none.mpr (hnone hp)]
    · rw [← hsize p hp]
      exact congrArg (Option.map List.length) (hsome hp)
  · by_cases hb : h.block p = none
    · rw [hnone hb, hb]
    · obtain ⟨b, hb'⟩ := Option.ne_none_iff_exists'.mp hb
      rw [hsome hb, hw.frame p hp, block_beside hb', hb']
  · have hblock : k.block = (h'.beside g).block := by
      funext p
      by_cases hp : h.block p = none
      · have hframe : k.block p = (h.beside g).block p := hw.frame p fun hmem => hl p hmem hp
        simp only [hframe, Heap.beside, hp, hnone hp]
      · obtain ⟨b, hb⟩ : ∃ b, k.block p = some b := by
          rw [← Option.ne_none_iff_exists']
          intro hk
          rw [← size_eq_none, hsize p hp, size_eq_none] at hk
          exact hp hk
        rw [hb, block_beside ((hsome hp).trans hb)]
    exact congr_arg₂ Heap.mk hblock hw.freed

/-- The blocks of a heap at the addresses where another one has none. -/
def without (h k : Heap) (fs : List (List UInt8)) : Heap := ⟨fun p => if k.block p = none then h.block p else none, fs⟩

section Without

variable {fs : List (List UInt8)}

theorem block_without (hk : k.block p = none) : (h.without k fs).block p = h.block p := if_pos hk

theorem block_without_of_ne (hk : k.block p ≠ none) : (h.without k fs).block p = none := if_neg hk

theorem apart_without : k.Apart (h.without k fs) := by
  intro p
  by_cases hk : k.block p = none
  · exact .inl hk
  · exact .inr (block_without_of_ne hk)

/-- A heap is a part of it and what is left without that. -/
theorem beside_without (hk : ∀ p b, k.block p = some b → h.block p = some b) (hf : h.freed = k.freed ++ fs) :
    h = k.beside (h.without k fs) := by
  have hblock : h.block = (k.beside (h.without k fs)).block := by
    funext p
    by_cases hp : k.block p = none
    · simp only [beside, hp, block_without hp, Option.none_or]
    · obtain ⟨b, hb⟩ := Option.ne_none_iff_exists'.mp hp
      rw [block_beside hb]
      exact hk p b hb
  exact congr_arg₂ Heap.mk hblock hf

end Without

/-! ## Parts -/

/-- The blocks of a heap, divided up. -/
structure Parts {ι : Type} (h : Heap) (part : ι → Heap) : Prop where
  apart : ∀ i j, i ≠ j → (part i).Apart (part j)
  block : ∀ p b, h.block p = some b ↔ ∃ i, (part i).block p = some b

section Parts

variable {ι : Type} [DecidableEq ι] {part : ι → Heap} {i j : ι} {fs : List (List UInt8)}

omit [DecidableEq ι] in
/-- The blocks of the other parts are left without one of them. -/
theorem Parts.block_without (hp : h.Parts part) (hj : j ≠ i) (hb : (part j).block p = some b) :
    (h.without (part i) fs).block p = some b := by
  have hi : (part i).block p = none := (hp.apart i j hj.symm p).resolve_right fun hn => by rw [hb] at hn; cases hn
  rw [Heap.block_without hi]
  exact (hp.block p b).mpr ⟨j, hb⟩

omit [DecidableEq ι] in
theorem Parts.apart_of_without (hp : h.Parts part) (hj : j ≠ i) (hk : k.Apart (h.without (part i) fs)) :
    k.Apart (part j) := by
  intro p
  refine (hk p).imp_right fun hn => Option.eq_none_iff_forall_ne_some.mpr fun b hb => ?_
  rw [hp.block_without hj hb] at hn
  cases hn

omit [DecidableEq ι] in
/-- What is left without a part is in another one. -/
theorem Parts.of_without (hp : h.Parts part) (hb : (h.without (part i) fs).block p = some b) :
    ∃ j, j ≠ i ∧ (part j).block p = some b := by
  have hi : (part i).block p = none := by
    by_contra hi
    rw [block_without_of_ne hi] at hb
    cases hb
  rw [Heap.block_without hi] at hb
  obtain ⟨j, hj⟩ := (hp.block p b).mp hb
  refine ⟨j, ?_, hj⟩
  rintro rfl
  rw [hi] at hj
  cases hj

/-- **A new part** in place of an old one. -/
theorem Parts.replace (hp : h.Parts part) (hk : k.Apart (h.without (part i) fs)) :
    (k.beside (h.without (part i) fs)).Parts (Function.update part i k) := by
  refine ⟨fun x y hxy p => ?_, fun p b => ⟨fun hb => ?_, ?_⟩⟩
  · by_cases hx : x = i
    · subst hx
      rw [Function.update_self, Function.update_of_ne hxy.symm]
      exact hp.apart_of_without hxy.symm hk p
    · rw [Function.update_of_ne hx]
      by_cases hy : y = i
      · subst hy
        rw [Function.update_self]
        exact (hp.apart_of_without hx hk p).symm
      · rw [Function.update_of_ne hy]
        exact hp.apart x y hxy p
  · rcases Option.or_eq_some_iff.mp hb with hb | ⟨-, hb⟩
    · exact ⟨i, by rwa [Function.update_self]⟩
    · obtain ⟨j, hji, hj⟩ := hp.of_without hb
      exact ⟨j, by rwa [Function.update_of_ne hji]⟩
  · rintro ⟨j, hj⟩
    by_cases hji : j = i
    · subst hji
      rw [Function.update_self] at hj
      exact block_beside hj
    · rw [Function.update_of_ne hji] at hj
      have hnone : k.block p = none := (hp.apart_of_without hji hk p).resolve_right fun hn => by rw [hj] at hn; cases hn
      simp only [beside, hnone, hp.block_without hji hj, Option.none_or]

/-- **One part and the others**: whatever happens to a part, if it stays apart from the others. -/
theorem Parts.others (hp : h.Parts part) (i : ι) (hf : h.freed = (part i).freed ++ fs) :
    ∃ g : Heap, g.freed = fs ∧ (part i).Apart g ∧ h = (part i).beside g ∧
      ∀ k : Heap, k.Apart g → (k.beside g).Parts (Function.update part i k) :=
  ⟨h.without (part i) fs, rfl, apart_without, beside_without (fun p b hb => (hp.block p b).mpr ⟨i, hb⟩) hf,
    fun _ hk => hp.replace hk⟩

/-- **Handing over**: the blocks of one part become blocks of another. -/
theorem Parts.merge (hp : h.Parts part) (hij : i ≠ j) :
    h.Parts (Function.update (Function.update part j empty) i ((part j).beside (part i))) := by
  generalize hpart : Function.update (Function.update part j empty) i ((part j).beside (part i)) = part'
  have hi : part' i = (part j).beside (part i) := by rw [← hpart, Function.update_self]
  have hj : part' j = empty := by rw [← hpart, Function.update_of_ne hij.symm, Function.update_self]
  have hrest {x : ι} (hxi : x ≠ i) (hxj : x ≠ j) : part' x = part x := by
    rw [← hpart, Function.update_of_ne hxi, Function.update_of_ne hxj]
  have hapart {x : ι} (hxi : x ≠ i) (p : Nat) : (part' i).block p = none ∨ (part' x).block p = none := by
    by_cases hxj : x = j
    · exact .inr (by rw [hxj, hj]; rfl)
    · rw [hi, hrest hxi hxj, block_beside_eq_none]
      rcases hp.apart i x hxi.symm p with h₁ | h₁
      · exact (hp.apart j x (Ne.symm hxj) p).imp_left fun h₂ => ⟨h₂, h₁⟩
      · exact .inr h₁
  refine ⟨fun x y hxy p => ?_, fun p b => (hp.block p b).trans ⟨?_, ?_⟩⟩
  · by_cases hx : x = i
    · exact hx ▸ hapart (hx ▸ hxy.symm) p
    · by_cases hy : y = i
      · exact hy ▸ (hapart (hy ▸ hxy) p).symm
      · by_cases hxj : x = j
        · exact .inl (by rw [hxj, hj]; rfl)
        · by_cases hyj : y = j
          · exact .inr (by rw [hyj, hj]; rfl)
          · rw [hrest hx hxj, hrest hy hyj]
            exact hp.apart x y hxy p
  · rintro ⟨x, hx⟩
    by_cases hxi : x = i
    · subst hxi
      have hnone : (part j).block p = none := (hp.apart x j hij p).resolve_left fun hn => by rw [hx] at hn; cases hn
      exact ⟨x, by rw [hi]; simp only [beside, hnone, hx, Option.none_or]⟩
    · by_cases hxj : x = j
      · exact ⟨i, by rw [hi, block_beside (hxj ▸ hx)]⟩
      · exact ⟨x, by rw [hrest hxi hxj, hx]⟩
  · rintro ⟨x, hx⟩
    by_cases hxi : x = i
    · rw [hxi, hi] at hx
      rcases Option.or_eq_some_iff.mp hx with hx | ⟨-, hx⟩
      · exact ⟨j, hx⟩
      · exact ⟨i, hx⟩
    · by_cases hxj : x = j
      · rw [hxj, hj] at hx
        cases hx
      · exact ⟨x, by rwa [← hrest hxi hxj]⟩

end Parts

end Heap

end Program
