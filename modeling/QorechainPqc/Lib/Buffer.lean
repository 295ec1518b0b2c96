import Mathlib.Data.List.Basic

/-!
# Blocks of memory that remember their writes, and growable vectors

A `Buffer` is an allocated block. Each cell holds the bytes written to it, the last one first, so that "written exactly
once" is a property of the result (`Buffer.WrittenOnce`) and a store outside the block is a failure (`Buffer.set`).

`filled bs m` is the block whose first cells were written once each with `bs` and whose last `m` cells are untouched.
Writing at its frontier moves the frontier (`write_filled`), and fails exactly when the bytes do not fit; this one lemma
is what a sequence of writes at a running offset needs.
-/

namespace Framing

/-- An allocated block: for each cell the bytes written to it, the last one first. -/
structure Buffer where
  cells : List (List UInt8)
deriving DecidableEq

namespace Buffer

/-- A fresh block of `n` cells. -/
def alloc (n : Nat) : Buffer := ⟨List.replicate n []⟩

def size (b : Buffer) : Nat := b.cells.length

/-- Store one byte; there is no cell outside the block. -/
def set (b : Buffer) (i : Nat) (x : UInt8) : Option Buffer :=
  if i < b.size then some ⟨b.cells.modify i (x :: ·)⟩ else none

/-- Store bytes at consecutive cells. -/
def write (b : Buffer) (i : Nat) : List UInt8 → Option Buffer
  | [] => some b
  | x :: xs => (b.set i x).bind fun b' => b'.write (i + 1) xs

/-- Every cell was written, and only once. -/
def WrittenOnce (b : Buffer) : Prop := ∀ c ∈ b.cells, c.length = 1

instance (b : Buffer) : Decidable b.WrittenOnce := inferInstanceAs (Decidable (∀ c ∈ b.cells, c.length = 1))

/-- What a reader sees: the last byte of each cell, `0` where nothing was written. -/
def contents (b : Buffer) : List UInt8 := b.cells.map fun c => c.headD 0

/-- The first cells written once each with `bs`, then `m` untouched cells. -/
def filled (bs : List UInt8) (m : Nat) : Buffer := ⟨bs.map ([·]) ++ List.replicate m []⟩

@[simp] theorem filled_nil (m : Nat) : filled [] m = alloc m := rfl

@[simp] theorem size_filled (bs : List UInt8) (m : Nat) : (filled bs m).size = bs.length + m := by
  simp [filled, size]

@[simp] theorem size_alloc (n : Nat) : (alloc n).size = n := by simp [alloc, size]

@[simp] theorem contents_filled (bs : List UInt8) : (filled bs 0).contents = bs := by
  simp only [filled, contents, List.replicate_zero, List.append_nil, List.map_map]
  exact List.map_id bs

theorem writtenOnce_filled (bs : List UInt8) : (filled bs 0).WrittenOnce := by
  intro c hc
  simp only [filled, List.replicate_zero, List.append_nil, List.mem_map] at hc
  obtain ⟨b, _, rfl⟩ := hc
  rfl

theorem set_size {b b' : Buffer} {i : Nat} {x : UInt8} (h : b.set i x = some b') : b'.size = b.size := by
  unfold set at h
  split at h
  · cases h; simp [size]
  · cases h

/-- A write keeps the size, and stays inside the block unless it stores nothing. -/
theorem write_bounds : ∀ {xs : List UInt8} {b b' : Buffer} {i : Nat}, b.write i xs = some b' →
    b'.size = b.size ∧ (xs = [] ∨ i + xs.length ≤ b.size)
  | [], b, b', i, h => by
    rw [write, Option.some.injEq] at h
    exact ⟨by rw [h], Or.inl rfl⟩
  | x :: xs, b, b', i, h => by
    obtain ⟨b₁, h₁, h₂⟩ := Option.bind_eq_some_iff.mp h
    have hs := set_size h₁
    have hi : i < b.size := by
      by_contra hn
      rw [set, if_neg hn] at h₁
      cases h₁
    obtain ⟨hs', hle⟩ := write_bounds h₂
    refine ⟨hs'.trans hs, Or.inr ?_⟩
    rcases hle with rfl | hle
    · exact hi
    · rw [hs] at hle
      rw [List.length_cons]
      omega

/-- Storing into the cell between `l` and `r`. -/
theorem set_between (l : List (List UInt8)) (c : List UInt8) (r : List (List UInt8)) (x : UInt8) :
    set ⟨l ++ c :: r⟩ l.length x = some ⟨l ++ (x :: c) :: r⟩ := by
  simp [set, size, List.modify_eq_take_cons_drop]

/-- Storing at the frontier of a block that is not full. -/
theorem set_filled_succ (bs : List UInt8) (m : Nat) (x : UInt8) :
    (filled bs (m + 1)).set bs.length x = some (filled (bs ++ [x]) m) := by
  have h := set_between (bs.map ([·])) [] (List.replicate m []) x
  rw [List.length_map] at h
  rw [filled, List.replicate_succ, h]
  simp [filled]

theorem set_filled_zero (bs : List UInt8) (x : UInt8) : (filled bs 0).set bs.length x = none := by
  simp [set]

/-- **Writing at the frontier**: the bytes land behind the others if they fit, and the write leaves the block if not. -/
theorem write_filled : ∀ (xs bs : List UInt8) (m : Nat), (filled bs m).write bs.length xs =
    if xs.length ≤ m then some (filled (bs ++ xs) (m - xs.length)) else none
  | [], bs, m => by simp [write]
  | x :: xs, bs, 0 => by simp [write, set_filled_zero]
  | x :: xs, bs, m + 1 => by
    have ih := write_filled xs (bs ++ [x]) m
    rw [List.length_append, List.length_singleton] at ih
    rw [write, set_filled_succ, Option.bind_some, ih]
    simp

/-! ## Order of writes -/

/-- Stores to different cells commute. -/
theorem set_comm {i j : Nat} (h : i ≠ j) (b : Buffer) (x y : UInt8) :
    ((b.set i x).bind fun b' => b'.set j y) = (b.set j y).bind fun b' => b'.set i x := by
  have hm : (b.cells.modify i (x :: ·)).modify j (y :: ·) = (b.cells.modify j (y :: ·)).modify i (x :: ·) := by
    apply List.ext_getElem?
    intro k
    simp only [List.getElem?_modify]
    by_cases hi : i = k
    · have hj : j ≠ k := fun e => h (hi.trans e.symm)
      simp [hi, hj]
    · simp [hi]
  unfold set size
  by_cases hi : i < b.cells.length
  · by_cases hj : j < b.cells.length
    · simp [hi, hj, hm]
    · simp [hi, hj]
  · by_cases hj : j < b.cells.length
    · simp [hi, hj]
    · simp [hi, hj]

/-- A store in front of the cells written commutes with the write. -/
theorem set_write_comm {i j : Nat} {x : UInt8} : ∀ {b : Buffer} {xs : List UInt8}, i + xs.length ≤ j →
    ((b.set j x).bind fun b' => b'.write i xs) = (b.write i xs).bind fun b' => b'.set j x
  | b, [], _ => by simp [write]
  | b, y :: ys, h => by
    rw [List.length_cons] at h
    have hij : j ≠ i := by omega
    calc ((b.set j x).bind fun b' => b'.write i (y :: ys))
        = ((b.set j x).bind fun b' => b'.set i y).bind fun b' => b'.write (i + 1) ys := by
          simp [write, Option.bind_assoc]
      _ = (b.set i y).bind fun b' => (b'.set j x).bind fun b'' => b''.write (i + 1) ys := by
          rw [set_comm hij, Option.bind_assoc]
      _ = (b.set i y).bind fun b' => (b'.write (i + 1) ys).bind fun b'' => b''.set j x := by
          congr 1; funext b'
          exact set_write_comm (by omega)
      _ = (b.write i (y :: ys)).bind fun b' => b'.set j x := by simp [write, Option.bind_assoc]

theorem write_append (i : Nat) : ∀ (b : Buffer) (xs ys : List UInt8),
    b.write i (xs ++ ys) = (b.write i xs).bind fun b' => b'.write (i + xs.length) ys := by
  intro b xs
  induction xs generalizing b i with
  | nil => intro ys; simp [write]
  | cons x xs ih =>
    intro ys
    simp only [List.cons_append, write, List.length_cons, Option.bind_assoc]
    congr 1; funext b'
    rw [ih, Nat.add_right_comm, Nat.add_assoc]

/-- The last byte first. -/
theorem write_snoc (b : Buffer) (i : Nat) (xs : List UInt8) (x : UInt8) :
    b.write i (xs ++ [x]) = (b.set (i + xs.length) x).bind fun b' => b'.write i xs := by
  rw [write_append, set_write_comm (Nat.le_refl _)]
  simp [write]

/-! ## Parts at a running offset -/

/-- Write the parts one behind the other, from offset `o`. -/
def writeAll (b : Buffer) (o : Nat) : List (List UInt8) → Option Buffer
  | [] => some b
  | p :: ps => (b.write o p).bind fun b' => b'.writeAll (o + p.length) ps

theorem writeAll_eq (b : Buffer) (o : Nat) (ps : List (List UInt8)) : b.writeAll o ps = b.write o ps.flatten := by
  induction ps generalizing b o with
  | nil => rfl
  | cons p ps ih =>
    rw [writeAll, List.flatten_cons, write_append]
    congr 1; funext b'
    exact ih b' _

/-- **Filling a fresh block**: the parts fit, or a write leaves the block. -/
theorem write_alloc (n : Nat) (xs : List UInt8) :
    (alloc n).write 0 xs = if xs.length ≤ n then some (filled xs (n - xs.length)) else none := by
  have h := write_filled xs [] n
  rwa [filled_nil, List.length_nil, List.nil_append] at h

/-! ## Copies that are checked first -/

/-- Copy bytes into the block, if they fit behind offset `o`. -/
def copy (b : Buffer) (o : Nat) (xs : List UInt8) : Option Buffer :=
  if o + xs.length ≤ b.size then b.write o xs else none

/-- Copy the parts one behind the other, from offset `o`. -/
def copyAll (b : Buffer) (o : Nat) : List (List UInt8) → Option Buffer
  | [] => some b
  | p :: ps => (b.copy o p).bind fun b' => b'.copyAll (o + p.length) ps

/-- A copy at the frontier moves the frontier, if it fits. -/
theorem copy_filled (bs xs : List UInt8) (m : Nat) : (filled bs m).copy bs.length xs =
    if xs.length ≤ m then some (filled (bs ++ xs) (m - xs.length)) else none := by
  rw [copy, size_filled, write_filled]
  by_cases h : xs.length ≤ m
  · rw [if_pos (by omega)]
  · rw [if_neg (by omega), if_neg h]

theorem copyAll_filled : ∀ (ps : List (List UInt8)) (bs : List UInt8) (m : Nat), (filled bs m).copyAll bs.length ps =
    if ps.flatten.length ≤ m then some (filled (bs ++ ps.flatten) (m - ps.flatten.length)) else none
  | [], bs, m => by simp [copyAll]
  | p :: ps, bs, m => by
    have ih := copyAll_filled ps (bs ++ p) (m - p.length)
    rw [List.length_append] at ih
    rw [copyAll, copy_filled, List.flatten_cons, List.length_append]
    by_cases h : p.length ≤ m
    · rw [if_pos h, Option.bind_some, ih, List.append_assoc, Nat.sub_add_eq]
      by_cases h' : p.length + ps.flatten.length ≤ m
      · rw [if_pos h', if_pos (by omega)]
      · rw [if_neg h', if_neg (by omega)]
    · rw [if_neg h, if_neg (by omega), Option.bind_none]

/-- **Filling a fresh block by copies**: the parts fit, or a copy is refused. -/
theorem copyAll_alloc (n : Nat) (ps : List (List UInt8)) : (alloc n).copyAll 0 ps =
    if ps.flatten.length ≤ n then some (filled ps.flatten (n - ps.flatten.length)) else none :=
  copyAll_filled ps [] n

end Buffer

/-! ## Growable vectors -/

/-- Append to a vector that cannot grow beyond `limit` bytes. -/
def extend (limit : Nat) (out xs : List UInt8) : Option (List UInt8) :=
  if out.length + xs.length ≤ limit then some (out ++ xs) else none

/-- Appending twice is appending once. -/
theorem extend_extend (limit : Nat) (out xs ys : List UInt8) :
    ((extend limit out xs).bind fun out' => extend limit out' ys) = extend limit out (xs ++ ys) := by
  unfold extend
  by_cases h : out.length + xs.length ≤ limit
  · simp [h, Nat.add_assoc]
  · have h' : ¬ out.length + (xs ++ ys).length ≤ limit := by rw [List.length_append]; omega
    rw [if_neg h, if_neg h', Option.bind_none]

end Framing
