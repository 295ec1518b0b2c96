import QorechainPqc.Lib.Heap
import QorechainPqc.Lib.Machine
import QorechainPqc.Liboqs.Confinement
import QorechainPqc.Liboqs.Outputs

/-!
# Memory safety of the C binding

A process calls the functions of `qorechain_pqc.c` one after another, in any order and with any names, keys, messages
and ciphertexts, and gives what it gets back to `qpqc_free`, in any order. As the header asks of it, its inputs can be
read in the lengths that it gives, its out-parameters are valid and no two of them the same, and a buffer for a shared
secret has 32 bytes. `malloc` may refuse a block, and liboqs may fail, at every point. A step that would be undefined
behaviour has no answer here: a scheme object that is not there, a buffer that is no block or too short for what liboqs
stores in it, a key of another size than liboqs reads, a mutex that is locked twice.

`sessions_safe`: no call of any such process ever gets there. The heap is at all times what it was at the beginning, and
the results that have not been given back, and at most two blocks for each call that has failed. What is given back is
overwritten by zeros in its whole length.
-/

namespace QorechainPqc.C

open Program

/-- What the process holds of liboqs: the scheme objects, and the mutex. -/
structure Objects where
  sigs : List OqsSig
  kems : List OqsKem
  locked : Bool

/-- The process, as far as the functions touch it: the heap, the objects, and the cells behind the out-parameters of the
call. -/
structure Process where
  heap : Heap
  objects : Objects
  cells : Cells

/-- What must be so when a request is made. The caller's buffer for a shared secret has 32 bytes. -/
def Req.Safe (m : Process) : Req → Prop
  | .sigFree => m.objects.sigs ≠ []
  | .kemFree => m.objects.kems ≠ []
  | .mutexLock => m.objects.locked = false
  | .mutexUnlock => m.objects.locked = true
  | .keypair s => s ∈ m.objects.sigs ∧ ∃ p q, m.cells.ptr .pk = some p ∧ m.cells.ptr .sk = some q ∧ p ≠ q ∧
      m.heap.Room p s.lengthPublicKey ∧ m.heap.Room q s.lengthSecretKey
  | .sign s _ sk => s ∈ m.objects.sigs ∧ sk.length = s.lengthSecretKey ∧
      ∃ p, m.cells.ptr .sig = some p ∧ m.heap.Room p s.lengthSignature
  | .verify s _ _ pk => s ∈ m.objects.sigs ∧ pk.length = s.lengthPublicKey
  | .encaps k pk => k ∈ m.objects.kems ∧ pk.length = k.lengthPublicKey ∧ k.lengthSharedSecret ≤ 32 ∧
      ∃ p, m.cells.ptr .ct = some p ∧ m.heap.Room p k.lengthCiphertext
  | .decaps k ct sk => k ∈ m.objects.kems ∧ sk.length = k.lengthSecretKey ∧ ct.length = k.lengthCiphertext ∧
      k.lengthSharedSecret ≤ 32
  | _ => True

/-- The blocks that liboqs stores its results in. -/
def Req.stores (m : Process) : Req → List Nat
  | .keypair _ => (m.cells.ptr .pk).toList ++ (m.cells.ptr .sk).toList
  | .sign _ _ _ => (m.cells.ptr .sig).toList
  | .encaps _ _ => (m.cells.ptr .ct).toList
  | _ => []

/-- What a request does, with its answer. A fresh block may contain anything, and so may a block that liboqs has stored
something in. -/
def Process.Next (m : Process) : ∀ q : Req, Ans q → Process → Prop
  | .sigNew _, s, m' => m' = { m with objects.sigs := s.toList ++ m.objects.sigs }
  | .sigFree, _, m' => m' = { m with objects.sigs := m.objects.sigs.tail }
  | .kemNew _, k, m' => m' = { m with objects.kems := k.toList ++ m.objects.kems }
  | .kemFree, _, m' => m' = { m with objects.kems := m.objects.kems.tail }
  | .malloc _, none, m' => m' = m
  | .malloc n, some p, m' => m.heap.block p = none ∧ ∃ b : Bytes, b.length = n ∧ m' = { m with heap := m.heap.put p b }
  | .mutexLock, _, m' => m' = { m with objects.locked := true }
  | .mutexUnlock, _, m' => m' = { m with objects.locked := false }
  | .storePtr o p, _, m' => m' = { m with cells.ptr := Function.update m.cells.ptr o p }
  | .storeLen o n, _, m' => m' = { m with cells.len := Function.update m.cells.len o n }
  | q, _, m' => ∃ h, m.heap.Writes h (q.stores m) ∧ m' = { m with heap := h }

/-- The process as an environment of the functions, with a build of liboqs. -/
def memory (reg : Registry) : Machine Req Ans Process where
  step m q a m' := q.Safe m ∧ (reg.mayAnswer q a ∧ q.keepsLength a) ∧ m.Next q a m'

/-- What is safe has an answer: a failure, if nothing else. -/
theorem exists_next (reg : Registry) (m : Process) (q : Req) :
    ∃ a m', (reg.mayAnswer q a ∧ q.keepsLength a) ∧ m.Next q a m' := by
  have hstored (q : Req) : ∃ h, m.heap.Writes h (q.stores m) := ⟨_, .refl _ _⟩
  cases q with
  | sigNew alg => exact ⟨none, _, ⟨.inl rfl, trivial⟩, rfl⟩
  | kemNew alg => exact ⟨none, _, ⟨.inl rfl, trivial⟩, rfl⟩
  | malloc n => exact ⟨none, _, ⟨trivial, trivial⟩, rfl⟩
  | sign s msg sk =>
    obtain ⟨h, hw⟩ := hstored (.sign s msg sk)
    exact ⟨(false, none), _, ⟨trivial, fun h => absurd h Bool.false_ne_true⟩, h, hw, rfl⟩
  | keypair s =>
    obtain ⟨h, hw⟩ := hstored (.keypair s)
    exact ⟨false, _, ⟨trivial, trivial⟩, h, hw, rfl⟩
  | verify s msg sig pk =>
    obtain ⟨h, hw⟩ := hstored (.verify s msg sig pk)
    exact ⟨false, _, ⟨trivial, trivial⟩, h, hw, rfl⟩
  | encaps k pk =>
    obtain ⟨h, hw⟩ := hstored (.encaps k pk)
    exact ⟨false, _, ⟨trivial, trivial⟩, h, hw, rfl⟩
  | decaps k ct sk =>
    obtain ⟨h, hw⟩ := hstored (.decaps k ct sk)
    exact ⟨false, _, ⟨trivial, trivial⟩, h, hw, rfl⟩
  | customZero => exact ⟨(), _, ⟨trivial, trivial⟩, _, .refl _ _, rfl⟩
  | switchSystem => exact ⟨(), _, ⟨trivial, trivial⟩, _, .refl _ _, rfl⟩
  | _ => exact ⟨(), _, ⟨trivial, trivial⟩, rfl⟩

/-- **A request**: it is safe, and whatever comes of it, the rest goes well. -/
theorem twp_call {reg : Registry} {m : Process} {q : Req} {post : Ans q → Process → Prop} (hsafe : q.Safe m)
    (hpost : ∀ a m', reg.mayAnswer q a → q.keepsLength a → m.Next q a m' → post a m') :
    (call q).twp (memory reg) post m := by
  refine ⟨?_, fun a m' h => hpost a m' h.2.1.1 h.2.1.2 h.2.2⟩
  obtain ⟨a, m', ha, hm⟩ := exists_next reg m q
  exact ⟨a, m', hsafe, ha, hm⟩

/-! ## A call in progress -/

/-- A call that has begun in `m` has got to `n`: with these objects and cells, and with the blocks `bs` of its own, of
these sizes. -/
structure Holds (m : Process) (o : Objects) (e : Cells) (bs : List (Nat × Nat)) (n : Process) : Prop where
  objects : n.objects = o
  cells : n.cells = e
  freed : n.heap.freed = m.heap.freed
  grows : m.heap.Grows n.heap (bs.map Prod.fst)
  sizes : ∀ b ∈ bs, n.heap.size b.1 = some b.2

theorem Holds.refl (m : Process) : Holds m m.objects m.cells [] m :=
  ⟨rfl, rfl, rfl, .refl m.heap, fun _ hb => absurd hb List.not_mem_nil⟩

section Requests

variable {reg : Registry} {m n : Process} {o : Objects} {e : Cells} {bs : List (Nat × Nat)}

theorem Holds.room {p size : Nat} (h : Holds m o e bs n) (hb : (p, size) ∈ bs) : n.heap.Room p size :=
  ⟨size, h.sizes (p, size) hb, Nat.le_refl size⟩

theorem Holds.sigNew {alg : Bytes} {post : Option OqsSig → Process → Prop} (h : Holds m o e bs n)
    (hnone : ∀ n, Holds m o e bs n → post none n)
    (hsome : ∀ s ∈ reg.sig alg, ∀ n, Holds m { o with sigs := s :: o.sigs } e bs n → post (some s) n) :
    (call (.sigNew alg)).twp (memory reg) post n := by
  obtain ⟨rfl, rfl, hfreed, hgrows, hsizes⟩ := h
  refine twp_call trivial fun s n' hs _ hn => ?_
  obtain rfl : n' = _ := hn
  rcases hs with rfl | rfl
  · exact hnone _ ⟨rfl, rfl, hfreed, hgrows, hsizes⟩
  · cases hr : reg.sig alg with
    | none => exact hnone _ ⟨rfl, rfl, hfreed, hgrows, hsizes⟩
    | some s => exact hsome s hr _ ⟨rfl, rfl, hfreed, hgrows, hsizes⟩

theorem Holds.kemNew {alg : Bytes} {post : Option OqsKem → Process → Prop} (h : Holds m o e bs n)
    (hnone : ∀ n, Holds m o e bs n → post none n)
    (hsome : ∀ k ∈ reg.kem alg, ∀ n, Holds m { o with kems := k :: o.kems } e bs n → post (some k) n) :
    (call (.kemNew alg)).twp (memory reg) post n := by
  obtain ⟨rfl, rfl, hfreed, hgrows, hsizes⟩ := h
  refine twp_call trivial fun k n' hk _ hn => ?_
  obtain rfl : n' = _ := hn
  rcases hk with rfl | rfl
  · exact hnone _ ⟨rfl, rfl, hfreed, hgrows, hsizes⟩
  · cases hr : reg.kem alg with
    | none => exact hnone _ ⟨rfl, rfl, hfreed, hgrows, hsizes⟩
    | some k => exact hsome k hr _ ⟨rfl, rfl, hfreed, hgrows, hsizes⟩

theorem Holds.sigFree {s : OqsSig} {post : Unit → Process → Prop} (h : Holds m { o with sigs := s :: o.sigs } e bs n)
    (hpost : ∀ n, Holds m o e bs n → post () n) : (call .sigFree).twp (memory reg) post n := by
  obtain ⟨hobjects, hcells, hfreed, hgrows, hsizes⟩ := h
  have hsigs : n.objects.sigs = s :: o.sigs := congrArg Objects.sigs hobjects
  refine twp_call (fun hnil => absurd (hsigs.symm.trans hnil) (List.cons_ne_nil s o.sigs)) fun _ n' _ _ hn => ?_
  obtain rfl : n' = _ := hn
  refine hpost _ ⟨?_, hcells, hfreed, hgrows, hsizes⟩
  show { n.objects with sigs := n.objects.sigs.tail } = o
  rw [hobjects]
  rfl

theorem Holds.kemFree {k : OqsKem} {post : Unit → Process → Prop} (h : Holds m { o with kems := k :: o.kems } e bs n)
    (hpost : ∀ n, Holds m o e bs n → post () n) : (call .kemFree).twp (memory reg) post n := by
  obtain ⟨hobjects, hcells, hfreed, hgrows, hsizes⟩ := h
  have hkems : n.objects.kems = k :: o.kems := congrArg Objects.kems hobjects
  refine twp_call (fun hnil => absurd (hkems.symm.trans hnil) (List.cons_ne_nil k o.kems)) fun _ n' _ _ hn => ?_
  obtain rfl : n' = _ := hn
  refine hpost _ ⟨?_, hcells, hfreed, hgrows, hsizes⟩
  show { n.objects with kems := n.objects.kems.tail } = o
  rw [hobjects]
  rfl

theorem Holds.malloc {size : Nat} {post : Option Nat → Process → Prop} (h : Holds m o e bs n)
    (hnone : ∀ n, Holds m o e bs n → post none n)
    (hsome : ∀ p n, Holds m o e (bs ++ [(p, size)]) n → post (some p) n) :
    (call (.malloc size)).twp (memory reg) post n := by
  refine twp_call trivial fun a n' _ _ hn => ?_
  cases a with
  | none =>
    obtain rfl : n' = n := hn
    exact hnone _ h
  | some p =>
    obtain ⟨hp, b, hb, rfl⟩ := hn
    have hgrows := h.grows.alloc (b := b) hp
    refine hsome p _ ⟨h.objects, h.cells, h.freed, ?_, fun x hx => ?_⟩
    · rwa [List.map_append]
    · rcases List.mem_append.mp hx with hx | hx
      · have hne : x.1 ≠ p := fun hxp => h.grows.live x.1 (List.mem_map_of_mem hx) (hxp ▸ hp)
        show (Function.update n.heap.block p (some b) x.1).map List.length = some x.2
        rw [Function.update_of_ne hne]
        exact h.sizes x hx
      · obtain rfl := List.mem_singleton.mp hx
        show (Function.update n.heap.block p (some b) p).map List.length = some size
        rw [Function.update_self, ← hb]
        rfl

theorem Holds.mutexLock {post : Unit → Process → Prop} (h : Holds m o e bs n) (ho : o.locked = false)
    (hpost : ∀ n, Holds m { o with locked := true } e bs n → post () n) :
    (call .mutexLock).twp (memory reg) post n := by
  obtain ⟨rfl, hcells, hfreed, hgrows, hsizes⟩ := h
  refine twp_call ho fun _ n' _ _ hn => ?_
  obtain rfl : n' = _ := hn
  exact hpost _ ⟨rfl, hcells, hfreed, hgrows, hsizes⟩

theorem Holds.mutexUnlock {post : Unit → Process → Prop} (h : Holds m { o with locked := true } e bs n)
    (ho : o.locked = false) (hpost : ∀ n, Holds m o e bs n → post () n) :
    (call .mutexUnlock).twp (memory reg) post n := by
  obtain ⟨hobjects, hcells, hfreed, hgrows, hsizes⟩ := h
  refine twp_call (congrArg Objects.locked hobjects) fun _ n' _ _ hn => ?_
  obtain rfl : n' = _ := hn
  refine hpost _ ⟨?_, hcells, hfreed, hgrows, hsizes⟩
  show { n.objects with locked := false } = o
  rw [hobjects, ← ho]

theorem Holds.storePtr {x : Out} {p : Option Nat} {post : Unit → Process → Prop} (h : Holds m o e bs n)
    (hpost : ∀ n, Holds m o { e with ptr := Function.update e.ptr x p } bs n → post () n) :
    (call (.storePtr x p)).twp (memory reg) post n := by
  obtain ⟨hobjects, rfl, hfreed, hgrows, hsizes⟩ := h
  refine twp_call trivial fun _ n' _ _ hn => ?_
  obtain rfl : n' = _ := hn
  exact hpost _ ⟨hobjects, rfl, hfreed, hgrows, hsizes⟩

theorem Holds.storeLen {x : Out} {len : Nat} {post : Unit → Process → Prop} (h : Holds m o e bs n)
    (hpost : ∀ n, Holds m o { e with len := Function.update e.len x len } bs n → post () n) :
    (call (.storeLen x len)).twp (memory reg) post n := by
  obtain ⟨hobjects, rfl, hfreed, hgrows, hsizes⟩ := h
  refine twp_call trivial fun _ n' _ _ hn => ?_
  obtain rfl : n' = _ := hn
  exact hpost _ ⟨hobjects, rfl, hfreed, hgrows, hsizes⟩

/-- **liboqs stores** what it has computed, in blocks of the call. -/
theorem Holds.stores {q : Req} {post : Ans q → Process → Prop} (h : Holds m o e bs n) (hsafe : q.Safe n)
    (hnext : ∀ a n', n.Next q a n' → ∃ h, n.heap.Writes h (q.stores n) ∧ n' = { n with heap := h })
    (hstores : ∀ p ∈ q.stores n, p ∈ bs.map Prod.fst)
    (hpost : ∀ a n, q.keepsLength a → Holds m o e bs n → post a n) : (call q).twp (memory reg) post n := by
  refine twp_call hsafe fun a n' _ ha hn => ?_
  obtain ⟨h', hw, rfl⟩ := hnext a n' hn
  exact hpost a _ ha ⟨h.objects, h.cells, hw.freed.trans h.freed, h.grows.writes hw hstores,
    fun b hb => (hw.size b.1).trans (h.sizes b hb)⟩

end Requests

/-! ## What a call leaves -/

/-- A result that the caller has to give back: the out-parameter that it came through, its address, and its length. -/
structure Handle where
  out : Out
  addr : Nat
  len : Nat

/-- A result in a block that has room for it. Only a signature may be shorter than its block. -/
def Handle.Fits (h : Heap) (x : Handle) : Prop := ∃ n, h.size x.addr = some n ∧ x.len ≤ n ∧ (x.out ≠ .sig → x.len = n)

/-- What the caller finds in its cells after a call. -/
def Output.handles (c : Output) (e : Cells) : List Handle :=
  c.returned.filterMap fun o => (e.ptr o.1).map fun p => ⟨o.1, p, e.len o.2⟩

/-- A call that succeeds has all its results, each in a block of its own, and has allocated nothing else. -/
structure Output.Given (c : Output) (m m' : Process) : Prop where
  all : (c.handles m'.cells).map Handle.out = c.returned.map Prod.fst
  grows : m.heap.Grows m'.heap ((c.handles m'.cells).map Handle.addr)
  fits : ∀ x ∈ c.handles m'.cells, x.Fits m'.heap

/-- A call leaves no object and not the mutex, and changes no block of others. If it fails, it may leave two blocks. -/
structure Leaves (c : Output) (m : Process) (r : Option Int) (m' : Process) : Prop where
  objects : m'.objects = m.objects
  freed : m'.heap.freed = m.heap.freed
  result : r = some qpqcErr ∧ (∃ l, l.length ≤ 2 ∧ m.heap.Grows m'.heap l) ∨ r = some qpqcOk ∧ c.Given m m'

section Functions

variable {reg : Registry} {w : SizeT} {m n : Process} {c : Output} {e : Cells} {bs : List (Nat × Nat)} {s : OqsSig}
  {k : OqsKem} {alg pk sk msg ct : Bytes}

theorem Holds.leaves_err (h : Holds m m.objects e bs n) (hbs : bs.length ≤ 2) : Leaves c m (some qpqcErr) n :=
  ⟨h.objects, h.freed, .inl ⟨rfl, bs.map Prod.fst, (List.length_map _).trans_le hbs, h.grows⟩⟩

theorem Holds.leaves_ok {xs : List Handle} (h : Holds m m.objects e bs n) (hxs : c.handles e = xs)
    (hall : xs.map Handle.out = c.returned.map Prod.fst) (haddr : xs.map Handle.addr = bs.map Prod.fst)
    (hfits : ∀ x ∈ xs, x.Fits n.heap) : Leaves c m (some qpqcOk) n := by
  subst hxs
  obtain ⟨hobjects, rfl, hfreed, hgrows, -⟩ := h
  exact ⟨hobjects, hfreed, .inr ⟨rfl, hall, haddr ▸ hgrows, hfits⟩⟩

/-- A call with a signature scheme frees it and fails. -/
theorem Holds.sig_fails (h : Holds m { m.objects with sigs := s :: m.objects.sigs } e bs n) (hbs : bs.length ≤ 2) :
    (call .sigFree).twp (memory reg) (fun _ => Leaves c m (some qpqcErr)) n :=
  h.sigFree fun _ h => h.leaves_err hbs

/-- A call with a KEM frees it and fails. -/
theorem Holds.kem_fails (h : Holds m { m.objects with kems := k :: m.objects.kems } e bs n) (hbs : bs.length ≤ 2) :
    (call .kemFree).twp (memory reg) (fun _ => Leaves c m (some qpqcErr)) n :=
  h.kemFree fun _ h => h.leaves_err hbs

theorem leaves_keygen (hlocked : m.objects.locked = false) :
    ((Output.keygen alg).prog w).twp (memory reg) (Leaves (.keygen alg) m) m := by
  simp only [Output.prog, qpqcMldsaKeygen, Prog.twp_map, Prog.twp_bind]
  refine (Holds.refl m).sigNew (fun n h => h.leaves_err (Nat.zero_le 2)) fun s _ n h => ?_
  simp only [Prog.twp_bind]
  refine h.malloc (fun n h => ?_) fun p n h => ?_
  · refine h.storePtr fun n h => ?_
    refine h.malloc (fun n h => ?_) fun q n h => ?_
    · exact h.storePtr fun n h => h.sig_fails (Nat.zero_le 2)
    · exact h.storePtr fun n h => h.sig_fails (Nat.le_succ 1)
  · refine h.storePtr fun n h => ?_
    refine h.malloc (fun n h => ?_) fun q n h => ?_
    · exact h.storePtr fun n h => h.sig_fails (Nat.le_succ 1)
    · refine h.storePtr fun n h => ?_
      refine h.mutexLock hlocked fun n h => ?_
      have hptr : n.cells.ptr .pk = some p ∧ n.cells.ptr .sk = some q := by
        rw [h.cells]
        exact ⟨rfl, rfl⟩
      have hne : p ≠ q := fun hpq => (List.nodup_cons.mp h.grows.nodup).1 (hpq ▸ List.mem_cons_self)
      refine h.stores ⟨?_, p, q, hptr.1, hptr.2, hne, h.room List.mem_cons_self, h.room (by simp)⟩
        (fun _ _ h => h) (fun x hx => ?_) fun success n _ h => ?_
      · rw [h.objects]
        exact List.mem_cons_self
      · simp only [Req.stores, hptr.1, hptr.2] at hx
        exact hx
      refine h.mutexUnlock hlocked fun n h => ?_
      refine h.storeLen fun n h => ?_
      refine h.storeLen fun n h => ?_
      cases success with
      | false => exact h.sig_fails (Nat.le_refl 2)
      | true =>
        refine h.sigFree fun n h => ?_
        let xs : List Handle := [⟨.pk, p, s.lengthPublicKey⟩, ⟨.sk, q, s.lengthSecretKey⟩]
        refine h.leaves_ok (show _ = xs from rfl) rfl rfl fun x hx => ?_
        rcases List.mem_pair.mp hx with rfl | rfl
        · exact ⟨_, h.sizes (p, _) List.mem_cons_self, Nat.le_refl _, fun _ => rfl⟩
        · exact ⟨_, h.sizes (q, _) (by simp), Nat.le_refl _, fun _ => rfl⟩

/-- A block for a signature: what both ways to sign do with it is up to `body`. -/
theorem leaves_signHead {body : OqsSig → CProg Int} (hbody : ∀ s p n, sk.length = s.lengthSecretKey →
      Holds m { m.objects with sigs := s :: m.objects.sigs }
        { m.cells with ptr := Function.update m.cells.ptr .sig (some p) } [(p, s.lengthSignature)] n →
      (body s).twp (memory reg) (fun r => Leaves c m (some r)) n) :
    (some <$> (do
      match ← call (.sigNew alg) with
      | none => return qpqcErr
      | some s =>
        if sk.length ≠ s.lengthSecretKey then
          call .sigFree
          return qpqcErr
        let sig ← call (.malloc s.lengthSignature)
        call (.storePtr .sig sig)
        if sig = none then
          call .sigFree
          return qpqcErr
        body s : CProg Int)).twp (memory reg) (Leaves c m) m := by
  simp only [Prog.twp_map, Prog.twp_bind]
  refine (Holds.refl m).sigNew (fun n h => h.leaves_err (Nat.zero_le 2)) fun s _ n h => ?_
  simp only [Prog.twp_bind, Prog.twp_ite]
  split
  · exact h.sig_fails (Nat.zero_le 2)
  · rename_i hsk
    refine h.malloc (fun n h => ?_) fun p n h => ?_
    · exact h.storePtr fun n h => h.sig_fails (Nat.zero_le 2)
    · exact h.storePtr fun n h => hbody s p n (not_not.mp hsk) h

/-- `OQS_SIG_sign` fails, or stores a signature that its block has room for, and its length. -/
theorem Holds.oqsSigSign {o : Objects} {p : Nat} {post : Bool → Process → Prop}
    (h : Holds m o e [(p, s.lengthSignature)] n) (hs : s ∈ o.sigs) (hsk : sk.length = s.lengthSecretKey)
    (hp : e.ptr .sig = some p) (hfail : ∀ e n, Holds m o e [(p, s.lengthSignature)] n → post false n)
    (hok : ∀ len ≤ s.lengthSignature, ∀ n,
      Holds m o { e with len := Function.update e.len .sigLen len } [(p, s.lengthSignature)] n → post true n) :
    (oqsSigSign s msg sk).twp (memory reg) post n := by
  simp only [C.oqsSigSign, Prog.twp_bind]
  have hptr : n.cells.ptr .sig = some p := by rw [h.cells, hp]
  have hlive : s ∈ n.objects.sigs := by rwa [h.objects]
  refine h.stores ⟨hlive, hsk, p, hptr, h.room List.mem_cons_self⟩ (fun _ _ h => h) (fun x hx => ?_) fun r n hr h => ?_
  · simp only [Req.stores, hptr] at hx
    exact hx
  obtain ⟨success, len⟩ := r
  cases success with
  | true =>
    obtain ⟨len, rfl, hle⟩ := hr rfl
    exact h.storeLen fun n h => hok len hle n h
  | false =>
    cases len with
    | none => exact hfail _ n h
    | some len => exact h.storeLen fun n h => hfail _ n h

/-- A signature that has been made is handed out. -/
theorem Holds.leaves_signature {p len : Nat} (hreturned : c.returned = [(.sig, .sigLen)])
    (hle : len ≤ s.lengthSignature)
    (h : Holds m m.objects ⟨Function.update m.cells.ptr .sig (some p), Function.update m.cells.len .sigLen len⟩
      [(p, s.lengthSignature)] n) : Leaves c m (some qpqcOk) n := by
  let xs : List Handle := [⟨.sig, p, len⟩]
  have hxs : c.handles ⟨Function.update m.cells.ptr .sig (some p), Function.update m.cells.len .sigLen len⟩ = xs := by
    rw [Output.handles, hreturned]
    rfl
  refine h.leaves_ok hxs (by rw [hreturned]; rfl) rfl fun x hx => ?_
  obtain rfl := List.mem_singleton.mp hx
  exact ⟨_, h.sizes (p, _) List.mem_cons_self, hle, fun hne => absurd rfl hne⟩

theorem leaves_sign (hlocked : m.objects.locked = false) :
    ((Output.sign alg sk msg).prog w).twp (memory reg) (Leaves (.sign alg sk msg) m) m := by
  refine leaves_signHead fun s p n hsk h => ?_
  refine Prog.twp_bind.mpr (h.mutexLock hlocked fun n h => Prog.twp_bind.mpr ?_)
  refine h.stores trivial (fun _ _ h => h) (fun _ hx => absurd hx List.not_mem_nil) fun _ n _ h => ?_
  refine Prog.twp_bind.mpr (h.oqsSigSign List.mem_cons_self hsk rfl (fun e n h => ?_) fun len hle n h => ?_)
  · refine h.stores trivial (fun _ _ h => h) (fun _ hx => absurd hx List.not_mem_nil) fun _ n _ h => ?_
    exact h.mutexUnlock hlocked fun n h => h.sig_fails (Nat.le_succ 1)
  · refine h.stores trivial (fun _ _ h => h) (fun _ hx => absurd hx List.not_mem_nil) fun _ n _ h => ?_
    exact h.mutexUnlock hlocked fun n h => h.sigFree fun n h => h.leaves_signature rfl hle

theorem leaves_signHedged (hlocked : m.objects.locked = false) :
    ((Output.signHedged alg sk msg).prog w).twp (memory reg) (Leaves (.signHedged alg sk msg) m) m := by
  refine leaves_signHead fun s p n hsk h => ?_
  refine Prog.twp_bind.mpr (h.mutexLock hlocked fun n h => ?_)
  refine Prog.twp_bind.mpr (h.oqsSigSign List.mem_cons_self hsk rfl (fun e n h => ?_) fun len hle n h => ?_)
  · exact h.mutexUnlock hlocked fun n h => h.sig_fails (Nat.le_succ 1)
  · exact h.mutexUnlock hlocked fun n h => h.sigFree fun n h => h.leaves_signature rfl hle

theorem leaves_encapsulate (hlocked : m.objects.locked = false) (hss : ∀ k ∈ reg.kem alg, k.lengthSharedSecret ≤ 32) :
    ((Output.encapsulate alg pk).prog w).twp (memory reg) (Leaves (.encapsulate alg pk) m) m := by
  simp only [Output.prog, qpqcMlkemEncapsulate, Prog.twp_map, Prog.twp_bind]
  refine (Holds.refl m).kemNew (fun n h => h.leaves_err (Nat.zero_le 2)) fun k hk n h => ?_
  simp only [Prog.twp_bind, Prog.twp_ite]
  split
  · exact h.kem_fails (Nat.zero_le 2)
  · rename_i hpk
    refine h.malloc (fun n h => ?_) fun p n h => ?_
    · exact h.storePtr fun n h => h.kem_fails (Nat.zero_le 2)
    · refine h.storePtr fun n h => ?_
      refine h.mutexLock hlocked fun n h => ?_
      have hptr : n.cells.ptr .ct = some p := by
        rw [h.cells]
        rfl
      refine h.stores ⟨?_, not_not.mp hpk, hss k hk, p, hptr, h.room List.mem_cons_self⟩ (fun _ _ h => h)
        (fun x hx => ?_) fun success n _ h => ?_
      · rw [h.objects]
        exact List.mem_cons_self
      · simp only [Req.stores, hptr] at hx
        exact hx
      refine h.mutexUnlock hlocked fun n h => ?_
      refine h.storeLen fun n h => ?_
      refine h.storeLen fun n h => ?_
      cases success with
      | false => exact h.kem_fails (Nat.le_succ 1)
      | true =>
        refine h.kemFree fun n h => ?_
        let xs : List Handle := [⟨.ct, p, k.lengthCiphertext⟩]
        refine h.leaves_ok (show _ = xs from rfl) rfl rfl fun x hx => ?_
        obtain rfl := List.mem_singleton.mp hx
        exact ⟨_, h.sizes (p, _) List.mem_cons_self, Nat.le_refl _, fun _ => rfl⟩

theorem leaves_decapsulate (hss : ∀ k ∈ reg.kem alg, k.lengthSharedSecret ≤ 32) :
    ((Output.decapsulate alg sk ct).prog w).twp (memory reg) (Leaves (.decapsulate alg sk ct) m) m := by
  simp only [Output.prog, qpqcMlkemDecapsulate, Prog.twp_map, Prog.twp_bind]
  refine (Holds.refl m).kemNew (fun n h => h.leaves_err (Nat.zero_le 2)) fun k hk n h => ?_
  simp only [Prog.twp_bind, Prog.twp_ite]
  split
  · exact h.kem_fails (Nat.zero_le 2)
  · rename_i hlen
    rw [not_or, not_not, not_not] at hlen
    have hlive : k ∈ n.objects.kems := by
      rw [h.objects]
      exact List.mem_cons_self
    refine h.stores ⟨hlive, hlen.1, hlen.2, hss k hk⟩ (fun _ _ h => h) (fun _ hx => absurd hx List.not_mem_nil)
      fun success n _ h => ?_
    refine h.storeLen fun n h => ?_
    cases success with
    | false => exact h.kem_fails (Nat.zero_le 2)
    | true =>
      refine h.kemFree fun n h => ?_
      exact h.leaves_ok (show _ = [] from rfl) rfl rfl fun _ hx => absurd hx List.not_mem_nil

/-- The verification of a signature leaves nothing at all. -/
theorem leaves_verify {sig : Bytes} :
    (qpqcMldsaVerify alg pk msg sig).twp (memory reg) (fun _ n => Holds m m.objects m.cells [] n) m := by
  simp only [qpqcMldsaVerify, Prog.twp_bind]
  refine (Holds.refl m).sigNew (fun n h => h) fun s _ n h => ?_
  simp only [Prog.twp_bind, Prog.twp_ite]
  split
  · exact h.sigFree fun n h => h
  · rename_i hpk
    have hlive : s ∈ n.objects.sigs := by
      rw [h.objects]
      exact List.mem_cons_self
    refine h.stores ⟨hlive, not_not.mp hpk⟩ (fun _ _ h => h) (fun _ hx => absurd hx List.not_mem_nil) fun _ n _ h => ?_
    exact h.sigFree fun n h => h

/-- A builder whose stores stay in its block. -/
theorem leaves_publish {total : Nat} {stores : Framing.Buffer → Except Stop Framing.Buffer}
    (hstores : ∃ buf, stores (Framing.Buffer.alloc total) = .ok buf) (hreturned : c.returned = [(.out, .outLen)]) :
    (publish total stores total).twp (memory reg) (Leaves c m) m := by
  obtain ⟨buf, hbuf⟩ := hstores
  simp only [publish, Prog.twp_bind]
  refine (Holds.refl m).malloc (fun n h => h.leaves_err (Nat.zero_le 2)) fun p n h => ?_
  simp only [hbuf]
  refine h.storePtr fun n h => ?_
  refine h.storeLen fun n h => ?_
  let xs : List Handle := [⟨.out, p, total⟩]
  have hxs : c.handles ⟨Function.update m.cells.ptr .out (some p), Function.update m.cells.len .outLen total⟩ = xs := by
    rw [Output.handles, hreturned]
    rfl
  refine h.leaves_ok hxs (by rw [hreturned]; rfl) rfl fun x hx => ?_
  obtain rfl := List.mem_singleton.mp hx
  exact ⟨_, h.sizes (p, _) List.mem_cons_self, Nat.le_refl _, fun _ => rfl⟩

theorem leaves_publishV1 {b0 auth : Bytes} (hfits : FitsV1 w b0 auth) (hreturned : c.returned = [(.out, .outLen)]) :
    (publishV1 w b0 auth).twp (memory reg) (Leaves c m) m := by
  have h := qpqcHybridSignBytesV1_eq w (fun _ => true) b0 auth
  rw [qpqcHybridSignBytesV1_stores, if_neg (by decide)] at h
  have hstores := (stores_iff h).mp hfits
  have htotal : w.add (w.add 8 b0.length) auth.length ≠ 0 := by
    have hlt : 8 + b0.length + auth.length < w.modulus := hfits
    have hle : 8 + b0.length < w.modulus := by omega
    rw [w.add_of_lt hle, w.add_of_lt hlt]
    omega
  simp only [publishV1, if_pos htotal] at hstores ⊢
  exact leaves_publish hstores hreturned

theorem leaves_publishV2 {chainId : Option Bytes} {b0 auth : Bytes} (hfits : FitsV2 w chainId b0 auth)
    (hreturned : c.returned = [(.out, .outLen)]) :
    (publishV2 w chainId b0 auth).twp (memory reg) (Leaves c m) m := by
  have herr : Leaves c m (some qpqcErr) m := (Holds.refl m).leaves_err (Nat.zero_le 2)
  cases chainId with
  | none => exact herr
  | some chainId =>
    rw [publishV2]
    split
    · exact herr
    · rename_i hc
      have hne : chainId ≠ [] := fun h => hc (List.length_eq_zero_iff.mpr h)
      have h := qpqcHybridSignBytesV2_eq w (fun _ => true) hne b0 auth
      rw [qpqcHybridSignBytesV2_stores w _ hc, if_neg (by decide)] at h
      exact leaves_publish ((stores_iff h).mp (hfits.resolve_left hne)) hreturned

/-- What a caller sees to: the lengths of the parts of a message add up in `size_t`, and the shared secrets of the KEM
that it asks for have at most 32 bytes. -/
def Output.Admissible (w : SizeT) (reg : Registry) (c : Output) : Prop :=
  c.Fits w ∧ match c with
    | .encapsulate alg _ | .decapsulate alg _ _ => ∀ k ∈ reg.kem alg, k.lengthSharedSecret ≤ 32
    | _ => True

/-- **Every function with out-parameters** leaves the process in order. -/
theorem leaves_prog (hc : c.Admissible w reg) (hlocked : m.objects.locked = false) :
    (c.prog w).twp (memory reg) (Leaves c m) m := by
  obtain ⟨hfits, hss⟩ := hc
  cases c with
  | keygen alg => exact leaves_keygen hlocked
  | sign alg sk msg => exact leaves_sign hlocked
  | signHedged alg sk msg => exact leaves_signHedged hlocked
  | encapsulate alg pk => exact leaves_encapsulate hlocked hss
  | decapsulate alg sk ct => exact leaves_decapsulate hss
  | v1 b0 auth => exact leaves_publishV1 hfits rfl
  | v2 chainId b0 auth => exact leaves_publishV2 hfits rfl
  | dispatch version chainId b0 auth =>
    rw [Output.prog, publishVersion]
    split
    · rename_i h₁
      exact leaves_publishV1 (hfits.1 h₁) rfl
    · rename_i h₁
      split
      · rename_i h₂
        exact leaves_publishV2 (hfits.2 h₁ h₂) rfl
      · exact (Holds.refl m).leaves_err (Nat.zero_le 2)

end Functions

/-! ## Giving back -/

/-- `qpqc_free`. -/
def qpqcFree (buf : Option Nat) (len : Nat) (h : Heap) : Option Heap :=
  match buf with
  | none => some h
  | some p => do
    -- `OQS_MEM_cleanse`
    let h ← h.clear p len
    h.free p

/-- What was in a block when it was given back: zeros in the length of the result, and nothing else unless the result
was a signature. -/
def Handle.Wiped (x : Handle) (b : Bytes) : Prop :=
  ∃ rest, b = List.replicate x.len 0 ++ rest ∧ (x.out ≠ .sig → rest = [])

theorem Handle.Fits.grows {x : Handle} {h h' : Heap} {l : List Nat} (hx : x.Fits h) (hg : h.Grows h' l) :
    x.Fits h' := by
  obtain ⟨n, hn, hfit⟩ := hx
  have hlive : h.block x.addr ≠ none := fun hnone => by rw [Heap.size_eq_none.mpr hnone] at hn; cases hn
  refine ⟨n, ?_, hfit⟩
  rw [Heap.size, (hg.block hlive).2]
  exact hn

/-- **A result can be given back**, and what is given back is wiped. -/
theorem Handle.Fits.free {x : Handle} {h : Heap} (hx : x.Fits h) : ∃ b, x.Wiped b ∧
    qpqcFree (some x.addr) x.len h = some ⟨Function.update h.block x.addr none, b :: h.freed⟩ := by
  obtain ⟨n, hn, hle, heq⟩ := hx
  obtain ⟨b, hb, rfl⟩ := Heap.block_of_size hn
  exact ⟨_, ⟨b.drop x.len, rfl, fun hne => List.drop_eq_nil_of_le (heq hne).ge⟩, Heap.clear_free hb hle⟩

/-! ## Sessions -/

/-- A process between two calls, the results that it has and those that it has given back, and how many calls have
failed. -/
structure Session where
  process : Process
  results : List Handle
  returned : List Handle
  failures : Nat

namespace Session

/-- The process with the cells that the caller passes to its next call. -/
def entry (s : Session) (e : Cells) : Process := { s.process with cells := e }

/-- The session after a call. -/
def after (s : Session) (c : Output) (r : Option Int) (n : Process) : Session :=
  if r = some qpqcOk then { s with process := n, results := c.handles n.cells ++ s.results }
  else { s with process := n, failures := s.failures + 1 }

/-- The caller calls a function, or gives a result back. -/
inductive Step (w : SizeT) (reg : Registry) : Session → Session → Prop
  | call {s : Session} {c : Output} {e : Cells} {r : Option Int} {n : Process} (hc : c.Admissible w reg)
      (h : Exec (memory reg) (c.prog w) (s.entry e) r n) : Step w reg s (s.after c r n)
  | verify {s : Session} {alg pk msg sig : Bytes} {e : Cells} {r : Int} {n : Process}
      (h : Exec (memory reg) (qpqcMldsaVerify alg pk msg sig) (s.entry e) r n) : Step w reg s { s with process := n }
  | free {s : Session} {x : Handle} {xs : List Handle} {h : Heap} (hx : s.results.Perm (x :: xs))
      (hfree : qpqcFree (some x.addr) x.len s.process.heap = some h) :
      Step w reg s ⟨{ s.process with heap := h }, xs, x :: s.returned, s.failures⟩

/-- The beginning, with whatever the heap holds. -/
def start (h : Heap) (e : Cells) : Session := ⟨⟨h, ⟨[], [], false⟩, e⟩, [], [], 0⟩

/-- A session that has begun with this heap. -/
def Happens (w : SizeT) (reg : Registry) (h : Heap) (s : Session) : Prop :=
  ∃ e, Relation.ReflTransGen (Step w reg) (start h e) s

/-- The invariant: no object is held, the heap has grown by the results and by what failed calls have left, every result
has its block, and what was given back is wiped. -/
structure Inv (h : Heap) (s : Session) : Prop where
  objects : s.process.objects = ⟨[], [], false⟩
  accounts : ∃ lost, lost.length ≤ 2 * s.failures ∧ h.Grows s.process.heap (s.results.map Handle.addr ++ lost)
  fits : ∀ x ∈ s.results, x.Fits s.process.heap
  wiped : ∃ bs, s.process.heap.freed = bs ++ h.freed ∧ List.Forall₂ Handle.Wiped s.returned bs

variable {w : SizeT} {reg : Registry} {h : Heap} {s t : Session}

theorem inv_start (h : Heap) (e : Cells) : (start h e).Inv h where
  objects := rfl
  accounts := ⟨[], Nat.zero_le 0, .refl h⟩
  fits _ hx := absurd hx List.not_mem_nil
  wiped := ⟨[], rfl, .nil⟩

theorem Inv.call (hs : s.Inv h) {c : Output} {e : Cells} {r : Option Int} {n : Process}
    (hn : Leaves c (s.entry e) r n) : (s.after c r n).Inv h := by
  obtain ⟨lost, hlost, hgrows⟩ := hs.accounts
  obtain ⟨bs, hfreed, hwiped⟩ := hs.wiped
  have hobjects : n.objects = ⟨[], [], false⟩ := hn.objects.trans hs.objects
  have hfreed' : n.heap.freed = bs ++ h.freed := hn.freed.trans hfreed
  rcases hn.result with ⟨rfl, l, hl, hgrows'⟩ | ⟨rfl, hgiven⟩
  · refine ⟨hobjects, ⟨l ++ lost, ?_, ?_⟩, fun x hx => (hs.fits x hx).grows hgrows', bs, hfreed', hwiped⟩
    · show (l ++ lost).length ≤ 2 * (s.failures + 1)
      rw [List.length_append]
      omega
    · exact (hgrows.trans hgrows').perm (List.perm_append_comm_assoc ..)
  · refine ⟨hobjects, ⟨lost, hlost, ?_⟩, fun x hx => ?_, bs, hfreed', hwiped⟩
    · show h.Grows n.heap ((c.handles n.cells ++ s.results).map Handle.addr ++ lost)
      rw [List.map_append, List.append_assoc]
      exact hgrows.trans hgiven.grows
    · rcases List.mem_append.mp hx with hx | hx
      · exact hgiven.fits x hx
      · exact (hs.fits x hx).grows hgiven.grows

theorem Inv.verify (hs : s.Inv h) {e : Cells} {n : Process}
    (hn : Holds (s.entry e) s.process.objects e [] n) : ({ s with process := n } : Session).Inv h := by
  obtain ⟨lost, hlost, hgrows⟩ := hs.accounts
  obtain ⟨bs, hfreed, hwiped⟩ := hs.wiped
  exact ⟨hn.objects.trans hs.objects, ⟨lost, hlost, hgrows.trans hn.grows⟩, fun x hx => (hs.fits x hx).grows hn.grows,
    bs, hn.freed.trans hfreed, hwiped⟩

theorem Inv.free (hs : s.Inv h) {x : Handle} {xs : List Handle} {h' : Heap} (hx : s.results.Perm (x :: xs))
    (hfree : qpqcFree (some x.addr) x.len s.process.heap = some h') :
    Session.Inv h ⟨{ s.process with heap := h' }, xs, x :: s.returned, s.failures⟩ := by
  obtain ⟨lost, hlost, hgrows⟩ := hs.accounts
  obtain ⟨bs, hfreed, hwiped⟩ := hs.wiped
  obtain ⟨b, hb, hheap⟩ := (hs.fits x (hx.mem_iff.mpr List.mem_cons_self)).free
  obtain rfl : _ = h' := Option.some.inj (hheap.symm.trans hfree)
  have hgrows' : h.Grows s.process.heap (x.addr :: (xs.map Handle.addr ++ lost)) :=
    hgrows.perm ((hx.map Handle.addr).append_right lost)
  refine ⟨hs.objects, ⟨lost, hlost, hgrows'.free _⟩, fun y hy => ?_, b :: bs, congrArg (b :: ·) hfreed, .cons hb hwiped⟩
  -- the other results are at other addresses
  have hne : y.addr ≠ x.addr := fun hyx =>
    (List.nodup_cons.mp hgrows'.nodup).1 (hyx ▸ List.mem_append_left lost (List.mem_map_of_mem hy))
  obtain ⟨n, hn, hfit⟩ := hs.fits y (hx.mem_iff.mpr (List.mem_cons_of_mem x hy))
  refine ⟨n, ?_, hfit⟩
  show (Function.update s.process.heap.block x.addr none y.addr).map List.length = some n
  rw [Function.update_of_ne hne]
  exact hn

/-- **One step** keeps the invariant. -/
theorem Inv.step (hs : s.Inv h) (hst : Step w reg s t) : t.Inv h := by
  cases hst with
  | call hc he => exact hs.call (he.twp (leaves_prog hc (congrArg Objects.locked hs.objects)))
  | verify he => exact hs.verify (he.twp leaves_verify)
  | free hx hfree => exact hs.free hx hfree

/-- **Every session** keeps it. -/
theorem Happens.inv (hs : Happens w reg h s) : s.Inv h := by
  obtain ⟨e, hs⟩ := hs
  induction hs with
  | refl => exact inv_start h e
  | tail _ hst ih => exact ih.step hst

/-- What a caller can rely on between two calls of a session that has begun with the heap `h`. -/
structure Safe (w : SizeT) (reg : Registry) (h : Heap) (s : Session) : Prop where
  /-- No call gets to undefined behaviour, and each leaves the process in order. -/
  calls : ∀ (c : Output) e, c.Admissible w reg → (c.prog w).twp (memory reg) (Leaves c (s.entry e)) (s.entry e)
  verifications : ∀ alg pk msg sig e, (qpqcMldsaVerify alg pk msg sig).twp (memory reg)
    (fun _ n => n.objects = s.process.objects ∧ s.process.heap.Grows n.heap []) (s.entry e)
  /-- Every result can be given back. -/
  frees : ∀ x ∈ s.results, (qpqcFree (some x.addr) x.len s.process.heap).isSome
  /-- The heap is what it was, and the results, and what failed calls have left. -/
  accounts : ∃ lost, lost.length ≤ 2 * s.failures ∧ h.Grows s.process.heap (s.results.map Handle.addr ++ lost)
  wiped : ∃ bs, s.process.heap.freed = bs ++ h.freed ∧ List.Forall₂ Handle.Wiped s.returned bs
  /-- Nothing is leaked if nothing has failed. -/
  clean : s.failures = 0 → s.results = [] → s.process.heap.block = h.block

theorem Inv.safe (hs : s.Inv h) : s.Safe w reg h where
  calls c e hc := leaves_prog hc (congrArg Objects.locked hs.objects)
  verifications alg pk msg sig e := Prog.twp_mono leaves_verify fun _ n hn => ⟨hn.objects, hn.grows⟩
  frees x hx := by
    obtain ⟨b, -, hfree⟩ := (hs.fits x hx).free
    exact Option.isSome_iff_exists.mpr ⟨_, hfree⟩
  accounts := hs.accounts
  wiped := hs.wiped
  clean hfailures hresults := by
    obtain ⟨lost, hlost, hgrows⟩ := hs.accounts
    rw [hfailures, Nat.mul_zero, Nat.le_zero, List.length_eq_zero_iff] at hlost
    rw [hresults, hlost] at hgrows
    exact funext fun p => hgrows.frame p List.not_mem_nil

end Session

/-- **Memory safety**: whatever a process does with the functions and with what they return, it is safe between any two
calls, where what it hands to them can be read, and its out-parameters are valid and distinct. -/
theorem sessions_safe {w : SizeT} {reg : Registry} {h : Heap} {s : Session} (hs : Session.Happens w reg h s) :
    s.Safe w reg h :=
  hs.inv.safe

/-- A process that frames a v1 message in an empty heap, and gives it back. -/
theorem sessions_safe_v1 : ∃ s : Session, s.Safe .w64 ⟨fun _ => none, fun _ => none⟩ ⟨fun _ => none, []⟩ ∧
    s.returned = [⟨.out, 1, 10⟩] ∧ s.process.heap.freed = [List.replicate 10 0] := by
  let reg : Registry := ⟨fun _ => none, fun _ => none⟩
  let h : Heap := ⟨fun _ => none, []⟩
  let x : Handle := ⟨.out, 1, 10⟩
  let m : Process := (Session.start h stale).process
  let m₁ : Process := { m with heap := h.put 1 (List.replicate 10 7) }
  let m₂ : Process := { m₁ with cells.ptr := Function.update stale.ptr .out (some 1) }
  let m₃ : Process := { m₂ with cells.len := Function.update stale.len .outLen 10 }
  have hmalloc : (memory reg).step m (.malloc 10) (some 1 : Option Nat) m₁ :=
    ⟨trivial, ⟨trivial, trivial⟩, rfl, List.replicate 10 7, rfl, rfl⟩
  have hptr : (memory reg).step m₁ (.storePtr .out (some 1)) () m₂ := ⟨trivial, ⟨trivial, trivial⟩, rfl⟩
  have hlen : (memory reg).step m₂ (.storeLen .outLen 10) () m₃ := ⟨trivial, ⟨trivial, trivial⟩, rfl⟩
  have hrun : Exec (memory reg) ((Output.v1 [1] [2]).prog .w64) m (some qpqcOk) m₃ :=
    .ask hmalloc (.ask hptr (.ask hlen (.ret _ _)))
  have hc : (Output.v1 [1] [2]).Admissible .w64 reg := ⟨by show 10 < 2 ^ 64; decide, trivial⟩
  have hblock : m₃.heap.block 1 = some (List.replicate 10 7) := Heap.block_put_self
  have hroom : 10 ≤ (List.replicate 10 (7 : UInt8)).length := Nat.le_refl 10
  have hfree : qpqcFree (some x.addr) x.len m₃.heap =
      some ⟨Function.update m₃.heap.block 1 none, [List.replicate 10 0]⟩ := Heap.clear_free hblock hroom
  have hs : Session.Happens .w64 reg h ⟨{ m₃ with heap := ⟨Function.update m₃.heap.block 1 none,
      [List.replicate 10 0]⟩ }, [], [x], 0⟩ :=
    ⟨stale, .tail (.single (.call hc hrun)) (.free (.refl [x]) hfree)⟩
  exact ⟨_, sessions_safe hs, rfl, rfl⟩

end QorechainPqc.C
