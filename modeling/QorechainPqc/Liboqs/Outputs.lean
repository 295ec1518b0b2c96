import Mathlib.Logic.Function.Basic
import Mathlib.Tactic.MkIffOfInductiveProp
import QorechainPqc.Liboqs.C
import QorechainPqc.SignBytes.C

/-!
# Out-parameters in the C binding

A function that fails is meant to leave what its caller sees as it was, and to keep no block (`AllOrNothing`). The
builders fill a block of their own and hand it out at the end; the functions over liboqs store what `malloc` returns in
the caller's pointer first, and free nothing when a later step fails (`half_a_keypair`).

`all_or_nothing`: in every run, a call is all or nothing exactly if the run is `Clean`. It is given arguments that can
be read in the lengths that go with them, and valid out-parameters, no two of them the same. The lemmas in front of it
speak about the exits of a function: a refusal before anything was done, allocations that were all refused, a failure
with a block at hand, success.
-/

namespace QorechainPqc.C

open Failing Program

/-! ## The builders with their out-parameters -/

/-- `be32` and `memcpy` into the block of the v1 builder. -/
def storesV1 (b0 auth : Bytes) (buf : Framing.Buffer) : Except Stop Framing.Buffer := do
  let buf ← inBlock (be32 buf 0 (UInt32.ofNat b0.length))
  let buf ← inBlock (memcpyIf buf 4 b0)
  let buf ← inBlock (be32 buf (4 + b0.length) (UInt32.ofNat auth.length))
  inBlock (memcpyIf buf (8 + b0.length) auth)

/-- The stores into the block of the v2 builder, at an offset that is kept in `size_t`. -/
def storesV2 (w : SizeT) (chainId b0 auth : Bytes) (buf : Framing.Buffer) : Except Stop Framing.Buffer := do
  let dl := qpqcHybridSignBytesDomain.length
  let o := 0
  let buf ← inBlock (buf.write o qpqcHybridSignBytesDomain)
  let o := w.add o dl
  let buf ← inBlock (be64 buf o (UInt64.ofNat chainId.length))
  let o := w.add o 8
  let buf ← inBlock (memcpyIf buf o chainId)
  let o := w.add o chainId.length
  let buf ← inBlock (be32 buf o (UInt32.ofNat b0.length))
  let o := w.add o 4
  let buf ← inBlock (memcpyIf buf o b0)
  let o := w.add o b0.length
  let buf ← inBlock (be32 buf o (UInt32.ofNat auth.length))
  let o := w.add o 4
  inBlock (memcpyIf buf o auth)

/-- Ask for a block of `n` bytes, fill it, and hand it out with the length `total`; a store outside the block is
undefined behaviour (`none`). -/
def publish (n : Nat) (stores : Framing.Buffer → Except Stop Framing.Buffer) (total : Nat) : CProg (Option Int) := do
  match ← call (.malloc n) with
  | none => return some qpqcErr
  | some p =>
    match stores (Framing.Buffer.alloc n) with
    | .error _ => return none
    | .ok _ =>
      call (.storePtr .out (some p))
      call (.storeLen .outLen total)
      return some qpqcOk

/-- `qpqc_hybrid_sign_bytes_v1` with its out-parameters. -/
def publishV1 (w : SizeT) (b0 auth : Bytes) : CProg (Option Int) :=
  let total := w.add (w.add 8 b0.length) auth.length
  publish (if total ≠ 0 then total else 1) (storesV1 b0 auth) total

/-- `qpqc_hybrid_sign_bytes_v2` with its out-parameters. -/
def publishV2 (w : SizeT) (chainId : Option Bytes) (b0 auth : Bytes) : CProg (Option Int) :=
  match chainId with
  | none => return some qpqcErr
  | some chainId =>
    if chainId.length = 0 then return some qpqcErr
    else
      let dl := qpqcHybridSignBytesDomain.length
      let total := w.add (w.add (w.add (w.add (w.add dl 8) chainId.length) 8) b0.length) auth.length
      publish total (storesV2 w chainId b0 auth) total

/-- `qpqc_hybrid_sign_bytes` with its out-parameters. -/
def publishVersion (w : SizeT) (version : Int) (chainId : Option Bytes) (b0 auth : Bytes) : CProg (Option Int) :=
  if version = qpqcSignBytesV1 then publishV1 w b0 auth
  else if version = qpqcSignBytesV2 then publishV2 w chainId b0 auth
  else return some qpqcErr

theorem qpqcHybridSignBytesV1_stores (w : SizeT) (malloc : Nat → Bool) (b0 auth : Bytes) :
    qpqcHybridSignBytesV1 w malloc b0 auth = (do
      let total := w.add (w.add 8 b0.length) auth.length
      let buf ← allocate malloc (if total ≠ 0 then total else 1)
      let buf ← storesV1 b0 auth buf
      return (buf, total)) := by
  simp only [qpqcHybridSignBytesV1, storesV1, bind_assoc]

theorem qpqcHybridSignBytesV2_stores (w : SizeT) (malloc : Nat → Bool) {chainId : Bytes} (hc : chainId.length ≠ 0)
    (b0 auth : Bytes) : qpqcHybridSignBytesV2 w malloc (some chainId) b0 auth = (do
      let dl := qpqcHybridSignBytesDomain.length
      let total := w.add (w.add (w.add (w.add (w.add dl 8) chainId.length) 8) b0.length) auth.length
      let buf ← allocate malloc total
      let buf ← storesV2 w chainId b0 auth buf
      return (buf, total)) := by
  simp only [qpqcHybridSignBytesV2, storesV2, bind_assoc, if_neg hc]

/-! ## The functions with out-parameters -/

/-- A call of a function with out-parameters. -/
inductive Output
  | keygen (alg : Bytes)
  | sign (alg sk msg : Bytes)
  | signHedged (alg sk msg : Bytes)
  | encapsulate (alg pk : Bytes)
  | decapsulate (alg sk ct : Bytes)
  | v1 (b0 auth : Bytes)
  | v2 (chainId : Option Bytes) (b0 auth : Bytes)
  | dispatch (version : Int) (chainId : Option Bytes) (b0 auth : Bytes)

namespace Output

/-- The function that is called; `none` stands for undefined behaviour. -/
def prog (w : SizeT) : Output → CProg (Option Int)
  | keygen alg => some <$> qpqcMldsaKeygen alg
  | sign alg sk msg => some <$> qpqcMldsaSign alg sk msg
  | signHedged alg sk msg => some <$> qpqcMldsaSignHedged alg sk msg
  | encapsulate alg pk => some <$> qpqcMlkemEncapsulate alg pk
  | decapsulate alg sk ct => some <$> qpqcMlkemDecapsulate alg sk ct
  | v1 b0 auth => publishV1 w b0 auth
  | v2 chainId b0 auth => publishV2 w chainId b0 auth
  | dispatch version chainId b0 auth => publishVersion w version chainId b0 auth

/-- The pointers that the function hands out, each with its length. -/
def returned : Output → List (Out × Out)
  | keygen _ => [(.pk, .pkLen), (.sk, .skLen)]
  | sign _ _ _ | signHedged _ _ _ => [(.sig, .sigLen)]
  | encapsulate _ _ => [(.ct, .ctLen)]
  | decapsulate _ _ _ => []
  | v1 _ _ | v2 _ _ _ | dispatch _ _ _ _ => [(.out, .outLen)]

/-- The pointers that `malloc` is stored through before it is looked at. -/
def receivers : Output → List Out
  | keygen _ => [.pk, .sk]
  | sign _ _ _ | signHedged _ _ _ => [.sig]
  | encapsulate _ _ => [.ct]
  | decapsulate _ _ _ | v1 _ _ | v2 _ _ _ | dispatch _ _ _ _ => []

end Output

/-! ## Memory -/

/-- What the caller sees: the cells behind the out-parameters, and the blocks that the call has allocated, with their
sizes. None of the functions frees a block. -/
structure Memory where
  ptr : Out → Option Nat
  len : Out → Nat
  blocks : List (Nat × Nat)

/-- What a step does to the memory. -/
def Memory.step (m : Memory) : Event Req Ans → Memory
  | ⟨.malloc n, some p⟩ => { m with blocks := (p, n) :: m.blocks }
  | ⟨.storePtr o p, _⟩ => { m with ptr := Function.update m.ptr o p }
  | ⟨.storeLen o n, _⟩ => { m with len := Function.update m.len o n }
  | _ => m

/-- The memory after some events. -/
def Memory.after (m : Memory) (tr : List (Event Req Ans)) : Memory := tr.foldl step m

/-- The cells of a caller, before a call: what is behind its out-parameters, each of which points to a cell of its own.
What happens with a `NULL` among them, or with two of them that are the same, is undefined in C. -/
structure Cells where
  ptr : Out → Option Nat
  len : Out → Nat

def Cells.memory (c : Cells) : Memory := ⟨c.ptr, c.len, []⟩

/-- All or nothing: a call fails and has changed no cell and kept no block, or succeeds and every pointer that it hands
out points to a block that is at least as long as the length next to it. -/
@[mk_iff]
structure AllOrNothing (entry : Cells) (returned : List (Out × Out)) (m : Memory) (r : Option Int) : Prop where
  defined : r ≠ none
  err : r = some qpqcErr → m = entry.memory
  ok : r = some qpqcOk → ∀ o ∈ returned, ∃ p size, m.ptr o.1 = some p ∧ (p, size) ∈ m.blocks ∧ m.len o.2 ≤ size

/-- A liboqs call that takes a block fails. -/
def LateFailure : Event Req Ans → Prop
  | ⟨.keypair _, success⟩ => success = false
  | ⟨.sign _ _ _, r⟩ => r.1 = false
  | ⟨.encaps _ _, success⟩ => success = false
  | _ => False

/-- Decapsulation fails, and the length of the secret is not what the caller had in its cell. -/
def StrayLength (entry : Cells) : Event Req Ans → Prop
  | ⟨.decaps k _ _, success⟩ => success = false ∧ entry.len .ssLen ≠ k.lengthSharedSecret
  | _ => False

def Refused : Event Req Ans → Prop
  | ⟨.malloc _, p⟩ => p = none
  | _ => False

def Granted : Event Req Ans → Prop
  | ⟨.malloc _, p⟩ => p ≠ none
  | _ => False

/-- The message of the v1 builder fits `size_t`. -/
def FitsV1 (w : SizeT) (b0 auth : Bytes) : Prop := 8 + b0.length + auth.length < w.modulus

/-- That of the v2 builder does, or the chain id is refused. -/
def FitsV2 (w : SizeT) (chainId : Option Bytes) (b0 auth : Bytes) : Prop :=
  chainId.getD [] = [] ∨ 39 + (chainId.getD []).length + b0.length + auth.length < w.modulus

/-- The size of what a builder allocates does not wrap. -/
def Output.Fits (w : SizeT) : Output → Prop
  | .v1 b0 auth => FitsV1 w b0 auth
  | .v2 chainId b0 auth => FitsV2 w chainId b0 auth
  | .dispatch version chainId b0 auth => (version = qpqcSignBytesV1 → FitsV1 w b0 auth) ∧
      (version ≠ qpqcSignBytesV1 → version = qpqcSignBytesV2 → FitsV2 w chainId b0 auth)
  | _ => True

/-- Nothing fails after a block has been handed out. -/
@[mk_iff]
structure Clean (w : SizeT) (c : Output) (entry : Cells) (tr : List (Event Req Ans)) : Prop where
  early : ∀ e ∈ tr, ¬LateFailure e
  length : ∀ e ∈ tr, ¬StrayLength entry e
  malloc : (∃ e ∈ tr, Refused e) → (∀ e ∈ tr, ¬Granted e) ∧ ∀ o ∈ c.receivers, entry.ptr o = none
  fits : c.Fits w ∨ ∃ e ∈ tr, Refused e

/-- What liboqs answers: a successful signature comes with a length that its buffer has room for. -/
def Req.keepsLength : ∀ q : Req, Ans q → Prop
  | .sign s _ _, r => r.1 = true → ∃ n, r.2 = some n ∧ n ≤ s.lengthSignature
  | _, _ => True

/-- What is to be shown of a call. -/
def Exact (w : SizeT) (c : Output) (entry : Cells) (r : Option Int) (tr : List (Event Req Ans)) : Prop :=
  AllOrNothing entry c.returned (entry.memory.after tr) r ↔ Clean w c entry tr

section Exits

variable {w : SizeT} {entry : Cells} {alg sk pk msg ct : Bytes} {c : Output} {r : Option Int}
  {m : Memory} {tr : List (Event Req Ans)}

/-- Events that neither touch the memory nor fail. -/
def Quiet : Event Req Ans → Prop
  | ⟨.sigNew _, _⟩ | ⟨.sigFree, _⟩ | ⟨.kemNew _, _⟩ | ⟨.kemFree, _⟩ => True
  | _ => False

theorem Quiet.step {e : Event Req Ans} (h : Quiet e) (m : Memory) : m.step e = m := by
  obtain ⟨q, a⟩ := e
  cases q <;> first | rfl | exact absurd h id

theorem after_of_quiet (h : ∀ e ∈ tr, Quiet e) (m : Memory) : m.after tr = m := by
  induction tr with
  | nil => rfl
  | cons e tr ih =>
    rw [Memory.after, List.foldl_cons, (h e List.mem_cons_self).step]
    exact ih fun e he => h e (List.mem_cons_of_mem _ he)

/-- An event that is neither a failure of liboqs nor a block. -/
def Harmless (e : Event Req Ans) : Prop := ¬LateFailure e ∧ (∀ entry, ¬StrayLength entry e) ∧ ¬Granted e

theorem Quiet.harmless {e : Event Req Ans} (h : Quiet e) : Harmless e := by
  obtain ⟨q, a⟩ := e
  cases q <;> first | exact ⟨id, fun _ => id, id⟩ | exact absurd h id

theorem Quiet.not_refused {e : Event Req Ans} (h : Quiet e) : ¬Refused e := by
  obtain ⟨q, a⟩ := e
  cases q <;> first | exact id | exact absurd h id

/-- A call that refuses before it has done anything. -/
theorem exact_of_quiet (hfits : c.Fits w) (h : ∀ e ∈ tr, Quiet e) : Exact w c entry (some qpqcErr) tr := by
  refine iff_of_true ⟨nofun, fun _ => after_of_quiet h _, fun h => absurd h (by decide)⟩ ?_
  refine ⟨fun e he => (h e he).harmless.1, fun e he => (h e he).harmless.2.1 entry, ?_, Or.inl hfits⟩
  rintro ⟨e, he, hr⟩
  exact absurd hr (h e he).not_refused

/-- A call that succeeds, nothing having failed. -/
theorem exact_of_ok (hfits : c.Fits w) (hlate : ∀ e ∈ tr, ¬LateFailure e) (hstray : ∀ e ∈ tr, ¬StrayLength entry e)
    (hrefused : ∀ e ∈ tr, ¬Refused e)
    (hok : ∀ o ∈ c.returned, ∃ p size, (entry.memory.after tr).ptr o.1 = some p ∧
      (p, size) ∈ (entry.memory.after tr).blocks ∧ (entry.memory.after tr).len o.2 ≤ size) :
    Exact w c entry (some qpqcOk) tr := by
  refine iff_of_true ⟨nofun, fun h => absurd h (by decide), fun _ => hok⟩ ⟨hlate, hstray, ?_, Or.inl hfits⟩
  rintro ⟨e, he, hr⟩
  exact absurd hr (hrefused e he)

/-- A step keeps the blocks that are there. -/
theorem blocks_step (m : Memory) (e : Event Req Ans) : ∃ l, (m.step e).blocks = l ++ m.blocks := by
  obtain ⟨q, a⟩ := e
  cases q with
  | malloc n =>
    cases a with
    | none => exact ⟨[], rfl⟩
    | some p => exact ⟨[(p, n)], rfl⟩
  | _ => exact ⟨[], rfl⟩

theorem Granted.step {e : Event Req Ans} (h : Granted e) : (m.step e).blocks ≠ [] := by
  obtain ⟨q, a⟩ := e
  cases q with
  | malloc n =>
    cases a with
    | none => exact absurd rfl h
    | some p => exact List.cons_ne_nil _ _
  | _ => exact absurd h id

/-- So does a whole call: what was granted stays. -/
theorem blocks_after (hg : (∃ e ∈ tr, Granted e) ∨ m.blocks ≠ []) : (m.after tr).blocks ≠ [] := by
  induction tr generalizing m with
  | nil =>
    rcases hg with ⟨e, he, _⟩ | hm
    · cases he
    · exact hm
  | cons e tr ih =>
    refine ih ?_
    rcases hg with ⟨e', he', hgranted⟩ | hm
    · rcases List.mem_cons.mp he' with rfl | he'
      · exact Or.inr hgranted.step
      · exact Or.inl ⟨e', he', hgranted⟩
    · obtain ⟨l, hl⟩ := blocks_step m e
      exact Or.inr (by rw [hl]; exact List.append_ne_nil_of_right_ne_nil l hm)

/-- A call that fails with a block in its hands. -/
theorem exact_of_leak (hg : ∃ e ∈ tr, Granted e) (hf : (∃ e ∈ tr, LateFailure e) ∨ ∃ e ∈ tr, Refused e) :
    Exact w c entry (some qpqcErr) tr := by
  refine iff_of_false (fun h => ?_) fun h => ?_
  · exact blocks_after (Or.inl hg) (by rw [h.err rfl]; rfl)
  · rcases hf with ⟨e, he, hlate⟩ | hrefused
    · exact h.early e he hlate
    · obtain ⟨e, he, hgranted⟩ := hg
      exact (h.malloc hrefused).1 e he hgranted

/-- `NULL` is stored through `o`. -/
def StoresNull (o : Out) : Event Req Ans → Prop
  | ⟨.storePtr o' p, _⟩ => o' = o ∧ p = none
  | _ => False

/-- The events of a call that is granted no block. -/
def Vain (c : Output) (e : Event Req Ans) : Prop := Quiet e ∨ Refused e ∨ ∃ o ∈ c.receivers, StoresNull o e

theorem Vain.cases {e : Event Req Ans} (h : Vain c e) :
    (∀ m : Memory, m.step e = m) ∨
      ∃ o ∈ c.receivers, ∀ m : Memory, m.step e = { m with ptr := Function.update m.ptr o none } := by
  rcases h with hq | hr | ⟨o, ho, hs⟩
  · exact Or.inl hq.step
  · obtain ⟨q, a⟩ := e
    cases q with
    | malloc n =>
      obtain rfl : a = none := hr
      exact Or.inl fun _ => rfl
    | _ => exact absurd hr id
  · obtain ⟨q, a⟩ := e
    cases q with
    | storePtr o' p =>
      obtain ⟨rfl, rfl⟩ := hs
      exact Or.inr ⟨o', ho, fun _ => rfl⟩
    | _ => exact absurd hs id

/-- With `NULL` in the pointers already, nothing changes. -/
theorem after_of_vain (h : ∀ e ∈ tr, Vain c e) (hnull : ∀ o ∈ c.receivers, m.ptr o = none) : m.after tr = m := by
  induction tr with
  | nil => rfl
  | cons e tr ih =>
    have hstep : m.step e = m := by
      rcases (h e List.mem_cons_self).cases with hq | ⟨o, ho, hs⟩
      · exact hq m
      · rw [hs, ← hnull o ho, Function.update_eq_self]
    rw [Memory.after, List.foldl_cons, hstep]
    exact ih fun e he => h e (List.mem_cons_of_mem _ he)

/-- A `NULL` that is in a pointer, or stored there, is there in the end. -/
theorem null_after {o : Out} (h : ∀ e ∈ tr, Vain c e) (hs : m.ptr o = none ∨ ∃ e ∈ tr, StoresNull o e) :
    (m.after tr).ptr o = none := by
  induction tr generalizing m with
  | nil =>
    rcases hs with hm | ⟨e, he, _⟩
    · exact hm
    · cases he
  | cons e tr ih =>
    refine ih (fun e he => h e (List.mem_cons_of_mem _ he)) ?_
    rcases hs with hm | ⟨e', he', hs⟩
    · left
      rcases (h e List.mem_cons_self).cases with hq | ⟨o', _, hs⟩
      · rw [hq, hm]
      · rw [hs]
        by_cases ho : o = o'
        · rw [ho]
          exact Function.update_self _ _ _
        · exact (Function.update_of_ne ho _ _).trans hm
    · rcases List.mem_cons.mp he' with rfl | he'
      · left
        obtain ⟨q, a⟩ := e'
        cases q with
        | storePtr o' p =>
          obtain ⟨rfl, rfl⟩ := hs
          exact Function.update_self _ _ _
        | _ => exact absurd hs id
      · exact Or.inr ⟨e', he', hs⟩

theorem Vain.harmless {e : Event Req Ans} (h : Vain c e) : Harmless e := by
  rcases h with hq | hr | ⟨o, _, hs⟩
  · exact hq.harmless
  · obtain ⟨q, a⟩ := e
    cases q with
    | malloc n => exact ⟨id, fun _ => id, fun h => h hr⟩
    | _ => exact absurd hr id
  · obtain ⟨q, a⟩ := e
    cases q with
    | storePtr o' p => exact ⟨id, fun _ => id, id⟩
    | _ => exact absurd hs id

/-- A call whose allocations are all refused: `NULL` was stored through its pointers. -/
theorem exact_of_refused (h : ∀ e ∈ tr, Vain c e) (hr : ∃ e ∈ tr, Refused e)
    (hs : ∀ o ∈ c.receivers, ∃ e ∈ tr, StoresNull o e) : Exact w c entry (some qpqcErr) tr := by
  constructor
  · intro ha
    refine ⟨fun e he => (h e he).harmless.1, fun e he => (h e he).harmless.2.1 entry, fun _ => ⟨?_, ?_⟩, Or.inr hr⟩
    · exact fun e he => (h e he).harmless.2.2
    · intro o ho
      have hend := null_after h (m := entry.memory) (Or.inr (hs o ho))
      rwa [ha.err rfl] at hend
  · intro hc
    exact ⟨nofun, fun _ => after_of_vain h (hc.malloc hr).2, fun h => absurd h (by decide)⟩

/-- A decapsulation that fails: the length has been stored. -/
theorem exact_of_decaps_failed {k : OqsKem} : Exact w (.decapsulate alg sk ct) entry (some qpqcErr)
    [⟨.kemNew alg, some k⟩, ⟨.decaps k ct sk, false⟩, ⟨.storeLen .ssLen k.lengthSharedSecret, ()⟩, ⟨.kemFree, ()⟩] := by
  have hm : entry.memory.after [⟨.kemNew alg, some k⟩, ⟨.decaps k ct sk, false⟩,
      ⟨.storeLen .ssLen k.lengthSharedSecret, ()⟩, ⟨.kemFree, ()⟩] =
      ⟨entry.ptr, Function.update entry.len .ssLen k.lengthSharedSecret, []⟩ := rfl
  rw [Exact, hm]
  constructor
  · intro h
    have hlen : Function.update entry.len .ssLen k.lengthSharedSecret = entry.len := congrArg Memory.len (h.err rfl)
    have hss : entry.len .ssLen = k.lengthSharedSecret := by rw [← hlen, Function.update_self]
    exact ⟨by simp [LateFailure], by simp [StrayLength, hss], by simp [Refused], Or.inl trivial⟩
  · intro h
    have hss : entry.len .ssLen = k.lengthSharedSecret := by
      by_contra hne
      exact h.length ⟨.decaps k ct sk, false⟩ (List.mem_cons_of_mem _ List.mem_cons_self) ⟨rfl, hne⟩
    have hlen : Function.update entry.len .ssLen k.lengthSharedSecret = entry.len := by
      rw [← hss, Function.update_eq_self]
    exact ⟨nofun, fun _ => by rw [hlen]; rfl, fun h => absurd h (by decide)⟩

theorem exact_keygen : ((Output.keygen alg).prog w).wp (.record Req.keepsLength) (Exact w (.keygen alg) entry) [] := by
  simp only [Output.prog, qpqcMldsaKeygen, map_eq_pure_bind, call, Prog.wp_bind, Prog.wp_record_request]
  intro s _
  cases s with
  | none => exact exact_of_quiet trivial (by simp [Quiet])
  | some s =>
    simp only [Prog.wp_bind, Prog.wp_record_request]
    intro p _ _ _ q _ _ _
    cases p with
    | none =>
      simp only [true_or, if_true, Prog.wp_bind, Prog.wp_record_request]
      intro _ _
      cases q with
      | none =>
        exact exact_of_refused (by simp [Vain, Quiet, Refused, StoresNull, Output.receivers])
          (by simp [Refused]) (by simp [StoresNull, Output.receivers])
      | some q => exact exact_of_leak (by simp [Granted]) (Or.inr (by simp [Refused]))
    | some p =>
      cases q with
      | none =>
        simp only [or_true, if_true, Prog.wp_bind, Prog.wp_record_request]
        intro _ _
        exact exact_of_leak (by simp [Granted]) (Or.inr (by simp [Refused]))
      | some q =>
        simp only [reduceCtorEq, or_self, if_false, Prog.wp_bind, Prog.wp_record_request]
        intro _ _ success _ _ _ _ _ _ _ _ _
        cases success with
        | false => exact exact_of_leak (by simp [Granted]) (Or.inl (by simp [LateFailure]))
        | true =>
          refine exact_of_ok trivial (by simp [LateFailure]) (by simp [StrayLength]) (by simp [Refused]) ?_
          rintro o ho
          rcases List.mem_pair.mp ho with rfl | rfl
          · exact ⟨p, s.lengthPublicKey, by simp [Memory.after, Memory.step]⟩
          · exact ⟨q, s.lengthSecretKey, by simp [Memory.after, Memory.step]⟩

/-- What both ways to sign do up to the block that they hand out. -/
theorem exact_signHead {body : OqsSig → CProg Int} (hfits : c.Fits w) (hreceivers : c.receivers = [.sig])
    (hbody : ∀ s p, (some <$> body s).wp (.record Req.keepsLength) (Exact w c entry)
      [⟨.sigNew alg, some s⟩, ⟨.malloc s.lengthSignature, some p⟩, ⟨.storePtr .sig (some p), ()⟩]) :
    Prog.wp (.record Req.keepsLength) (some <$> (do
      match ← call (.sigNew alg) with
      | none => return qpqcErr
      | some s =>
        if sk.length ≠ s.lengthSecretKey then
          call .sigFree
          return qpqcErr
        let sig ← call (.malloc s.lengthSignature)
        call (.storePtr .sig sig)
        if sig = none then
          call .sigFree
          return qpqcErr
        body s : CProg Int)) (Exact w c entry) [] := by
  simp only [map_eq_pure_bind, call, Prog.wp_bind, Prog.wp_record_request] at hbody ⊢
  intro s _
  cases s with
  | none => exact exact_of_quiet hfits (by simp [Quiet])
  | some s =>
    simp only
    split
    · simp only [Prog.wp_bind, Prog.wp_record_request]
      intro _ _
      exact exact_of_quiet hfits (by simp [Quiet])
    · simp only [Prog.wp_bind, Prog.wp_record_request]
      intro p _ _ _
      cases p with
      | none =>
        simp only [if_true, Prog.wp_bind, Prog.wp_record_request]
        intro _ _
        exact exact_of_refused (by simp [Vain, Quiet, Refused, StoresNull, hreceivers])
          (by simp [Refused]) (by simp [StoresNull, hreceivers])
      | some p =>
        simp only [reduceCtorEq, if_false]
        exact hbody s p

/-- What `OQS_SIG_sign` stores through `sig_len`. -/
def stored : Option Nat → List (Event Req Ans)
  | none => []
  | some n => [⟨.storeLen .sigLen n, ()⟩]

/-- `OQS_SIG_sign` fails, or stores a length that there is room for. -/
theorem record_oqsSigSign {s : OqsSig} {post : Bool → List (Event Req Ans) → Prop}
    (hfail : ∀ n, post false (tr ++ [⟨.sign s msg sk, (false, n)⟩] ++ stored n))
    (hok : ∀ n, n ≤ s.lengthSignature → post true (tr ++ [⟨.sign s msg sk, (true, some n)⟩] ++ stored (some n))) :
    (oqsSigSign s msg sk).wp (.record Req.keepsLength) post tr := by
  simp only [oqsSigSign, call, Prog.wp_bind, Prog.wp_record_request]
  rintro ⟨success, n⟩ hr
  cases success with
  | true =>
    obtain ⟨n, rfl, hle⟩ := hr rfl
    simp only [Prog.wp_bind, Prog.wp_record_request]
    intro _ _
    exact hok n hle
  | false =>
    cases n with
    | none =>
      have h := hfail none
      rw [stored, List.append_nil] at h
      exact h
    | some n =>
      simp only [Prog.wp_bind, Prog.wp_record_request]
      intro _ _
      exact hfail (some n)

theorem exact_sign : ((Output.sign alg sk msg).prog w).wp (.record Req.keepsLength)
    (Exact w (.sign alg sk msg) entry) [] := by
  refine exact_signHead trivial rfl fun s p => ?_
  simp only [map_eq_pure_bind, call, Prog.wp_bind, Prog.wp_record_request]
  intro _ _ _ _
  refine record_oqsSigSign (fun n => ?_) fun n hle => ?_
  · simp only [Prog.wp_bind, Prog.wp_record_request]
    intro _ _ _ _ _ _
    exact exact_of_leak (by simp [Granted]) (Or.inl (by simp [LateFailure]))
  · simp only [Prog.wp_bind, Prog.wp_record_request]
    intro _ _ _ _ _ _
    exact exact_of_ok trivial (by simp [LateFailure, stored]) (by simp [StrayLength, stored])
      (by simp [Refused, stored]) (by simp [Output.returned, Memory.after, Memory.step, stored, hle])

theorem exact_signHedged : ((Output.signHedged alg sk msg).prog w).wp (.record Req.keepsLength)
    (Exact w (.signHedged alg sk msg) entry) [] := by
  refine exact_signHead trivial rfl fun s p => ?_
  simp only [map_eq_pure_bind, call, Prog.wp_bind, Prog.wp_record_request]
  intro _ _
  refine record_oqsSigSign (fun n => ?_) fun n hle => ?_
  · simp only [Prog.wp_bind, Prog.wp_record_request]
    intro _ _ _ _
    exact exact_of_leak (by simp [Granted]) (Or.inl (by simp [LateFailure]))
  · simp only [Prog.wp_bind, Prog.wp_record_request]
    intro _ _ _ _
    exact exact_of_ok trivial (by simp [LateFailure, stored]) (by simp [StrayLength, stored])
      (by simp [Refused, stored]) (by simp [Output.returned, Memory.after, Memory.step, stored, hle])

theorem exact_encapsulate : ((Output.encapsulate alg pk).prog w).wp (.record Req.keepsLength)
    (Exact w (.encapsulate alg pk) entry) [] := by
  simp only [Output.prog, qpqcMlkemEncapsulate, map_eq_pure_bind, call, Prog.wp_bind, Prog.wp_record_request]
  intro k _
  cases k with
  | none => exact exact_of_quiet trivial (by simp [Quiet])
  | some k =>
    simp only
    split
    · simp only [Prog.wp_bind, Prog.wp_record_request]
      intro _ _
      exact exact_of_quiet trivial (by simp [Quiet])
    · simp only [Prog.wp_bind, Prog.wp_record_request]
      intro p _ _ _
      cases p with
      | none =>
        simp only [if_true, Prog.wp_bind, Prog.wp_record_request]
        intro _ _
        exact exact_of_refused (by simp [Vain, Quiet, Refused, StoresNull, Output.receivers])
          (by simp [Refused]) (by simp [StoresNull, Output.receivers])
      | some p =>
        simp only [reduceCtorEq, if_false, Prog.wp_bind, Prog.wp_record_request]
        intro _ _ success _ _ _ _ _ _ _ _ _
        cases success with
        | false => exact exact_of_leak (by simp [Granted]) (Or.inl (by simp [LateFailure]))
        | true =>
          exact exact_of_ok trivial (by simp [LateFailure]) (by simp [StrayLength]) (by simp [Refused])
            (by simp [Output.returned, Memory.after, Memory.step])

theorem exact_decapsulate : ((Output.decapsulate alg sk ct).prog w).wp (.record Req.keepsLength)
    (Exact w (.decapsulate alg sk ct) entry) [] := by
  simp only [Output.prog, qpqcMlkemDecapsulate, map_eq_pure_bind, call, Prog.wp_bind, Prog.wp_record_request]
  intro k _
  cases k with
  | none => exact exact_of_quiet trivial (by simp [Quiet])
  | some k =>
    simp only
    split
    · simp only [Prog.wp_bind, Prog.wp_record_request]
      intro _ _
      exact exact_of_quiet trivial (by simp [Quiet])
    · simp only [Prog.wp_bind, Prog.wp_record_request]
      intro success _ _ _ _ _
      cases success with
      | false => exact exact_of_decaps_failed
      | true =>
        exact exact_of_ok trivial (by simp [LateFailure]) (by simp [StrayLength]) (by simp [Refused])
          (by simp [Output.returned])

/-- A builder fills its block before it hands it out. -/
theorem exact_publish {n total : Nat} {stores : Framing.Buffer → Except Stop Framing.Buffer}
    (hfits : c.Fits w ↔ ∃ buf, stores (Framing.Buffer.alloc n) = .ok buf) (htotal : c.Fits w → total ≤ n)
    (hreturned : c.returned = [(.out, .outLen)]) (hreceivers : c.receivers = []) :
    (publish n stores total).wp (.record Req.keepsLength) (Exact w c entry) [] := by
  simp only [publish, call, Prog.wp_bind, Prog.wp_record_request]
  intro p _
  cases p with
  | none => exact exact_of_refused (by simp [Vain, Refused]) (by simp [Refused]) (by simp [hreceivers])
  | some p =>
    cases hs : stores (Framing.Buffer.alloc n) with
    | ok buf =>
      have hc : c.Fits w := hfits.mpr ⟨buf, hs⟩
      simp only [Prog.wp_bind, Prog.wp_record_request]
      intro _ _ _ _
      exact exact_of_ok hc (by simp [LateFailure]) (by simp [StrayLength]) (by simp [Refused])
        (by simp [hreturned, Memory.after, Memory.step, htotal hc])
    | error e =>
      have hc : ¬c.Fits w := by
        intro h
        obtain ⟨buf, hbuf⟩ := hfits.mp h
        rw [hs] at hbuf
        cases hbuf
      refine iff_of_false (fun h => h.defined rfl) fun h => ?_
      have hor := h.fits
      simp [hc, Refused] at hor

/-- What the result of a builder says about its stores. -/
theorem stores_iff {n total : Nat} {stores : Framing.Buffer → Except Stop Framing.Buffer} {p : Prop} [Decidable p]
    {x : Framing.Buffer × Nat} (h : (do
      let buf ← allocate (fun _ => true) n
      let buf ← stores buf
      return (buf, total)) = if p then .ok x else .error .fault) :
    p ↔ ∃ buf, stores (Framing.Buffer.alloc n) = .ok buf := by
  simp only [allocate, if_true, ok_bind] at h
  cases hs : stores (Framing.Buffer.alloc n) with
  | ok buf =>
    rw [hs] at h
    by_cases hp : p
    · rw [if_pos hp] at h
      exact iff_of_true hp ⟨buf, rfl⟩
    · rw [if_neg hp] at h
      cases h
  | error e =>
    rw [hs] at h
    by_cases hp : p
    · rw [if_pos hp] at h
      cases h
    · refine iff_of_false hp ?_
      rintro ⟨buf, hbuf⟩
      cases hbuf

theorem exact_publishV1 {b0 auth : Bytes} (hfits : c.Fits w ↔ FitsV1 w b0 auth)
    (hreturned : c.returned = [(.out, .outLen)]) (hreceivers : c.receivers = []) :
    (publishV1 w b0 auth).wp (.record Req.keepsLength) (Exact w c entry) [] := by
  have h := qpqcHybridSignBytesV1_eq w (fun _ => true) b0 auth
  rw [qpqcHybridSignBytesV1_stores, if_neg (by decide)] at h
  have hfits' : c.Fits w ↔ 8 + b0.length + auth.length < w.modulus := hfits
  refine exact_publish (hfits'.trans (stores_iff h)) (fun _ => ?_) hreturned hreceivers
  split
  · exact Nat.le_refl _
  · omega

theorem exact_publishV2 {chainId : Option Bytes} {b0 auth : Bytes} (hfits : c.Fits w ↔ FitsV2 w chainId b0 auth)
    (hreturned : c.returned = [(.out, .outLen)]) (hreceivers : c.receivers = []) :
    (publishV2 w chainId b0 auth).wp (.record Req.keepsLength) (Exact w c entry) [] := by
  have hempty (hc : chainId.getD [] = []) : Exact w c entry (some qpqcErr) [] :=
    exact_of_quiet (hfits.mpr (Or.inl hc)) (by simp)
  cases chainId with
  | none => exact hempty rfl
  | some chainId =>
    rw [publishV2]
    split
    · rename_i hc
      exact hempty (List.length_eq_zero_iff.mp hc)
    · rename_i hc
      have hne : chainId ≠ [] := fun h => hc (List.length_eq_zero_iff.mpr h)
      have h := qpqcHybridSignBytesV2_eq w (fun _ => true) hne b0 auth
      rw [qpqcHybridSignBytesV2_stores w _ hc, if_neg (by decide)] at h
      have hfits' : c.Fits w ↔ 39 + chainId.length + b0.length + auth.length < w.modulus :=
        hfits.trans (or_iff_right hne)
      exact exact_publish (hfits'.trans (stores_iff h)) (fun _ => Nat.le_refl _) hreturned hreceivers

/-- **Every function with out-parameters**, in every run. -/
theorem exact_prog (c : Output) : (c.prog w).wp (.record Req.keepsLength) (Exact w c entry) [] := by
  cases c with
  | keygen alg => exact exact_keygen
  | sign alg sk msg => exact exact_sign
  | signHedged alg sk msg => exact exact_signHedged
  | encapsulate alg pk => exact exact_encapsulate
  | decapsulate alg sk ct => exact exact_decapsulate
  | v1 b0 auth => exact exact_publishV1 Iff.rfl rfl rfl
  | v2 chainId b0 auth => exact exact_publishV2 Iff.rfl rfl rfl
  | dispatch version chainId b0 auth =>
    rw [Output.prog, publishVersion]
    split
    · rename_i h₁
      exact exact_publishV1 (by simp [Output.Fits, h₁]) rfl rfl
    · rename_i h₁
      split
      · rename_i h₂
        exact exact_publishV2 ⟨fun h => h.2 h₁ h₂, fun h => ⟨fun h' => absurd h' h₁, fun _ _ => h⟩⟩ rfl rfl
      · rename_i h₂
        exact exact_of_quiet ⟨fun h => absurd h h₁, fun _ h => absurd h h₂⟩ (by simp)

end Exits

/-- **All or nothing**: a call changes what its caller sees only together with a result, exactly in the runs in which
nothing fails after a block has been handed out. -/
theorem all_or_nothing {w : SizeT} {c : Output} {entry : Cells} {tr : List (Event Req Ans)} {r : Option Int}
    (hr : Run Req.keepsLength (c.prog w) tr r) :
    AllOrNothing entry c.returned (entry.memory.after tr) r ↔ Clean w c entry tr :=
  Prog.wp_record.mp (exact_prog c) tr r hr

/-! ## Runs -/

/-- A caller whose pointers are `NULL` and whose lengths are left over. -/
def stale : Cells := ⟨fun _ => none, fun _ => 9⟩

/-- A key pair of ML-DSA-44. -/
def keygenTrace : List (Event Req Ans) :=
  [⟨.sigNew (Text.utf8 "ML-DSA-44".toList), some (.ofLevel .l44)⟩, ⟨.malloc 1312, some 1⟩, ⟨.storePtr .pk (some 1), ()⟩,
    ⟨.malloc 2560, some 2⟩, ⟨.storePtr .sk (some 2), ()⟩, ⟨.mutexLock, ()⟩, ⟨.keypair (.ofLevel .l44), true⟩,
    ⟨.mutexUnlock, ()⟩, ⟨.storeLen .pkLen 1312, ()⟩, ⟨.storeLen .skLen 2560, ()⟩, ⟨.sigFree, ()⟩]

theorem run_keygen :
    Run Req.keepsLength ((Output.keygen (Text.utf8 "ML-DSA-44".toList)).prog .w64) keygenTrace (some qpqcOk) := by
  refine .ask trivial (.ask trivial (.ask trivial ?_))
  refine .ask trivial (.ask trivial (.ask trivial ?_))
  refine .ask trivial (.ask trivial (.ask trivial ?_))
  exact .ask trivial (.ask trivial (.ret _))

/-- It is handed out whole. -/
theorem keygen_whole :
    AllOrNothing stale [(.pk, .pkLen), (.sk, .skLen)] (stale.memory.after keygenTrace) (some qpqcOk) :=
  (all_or_nothing run_keygen).mpr ⟨by simp [keygenTrace, LateFailure], by simp [keygenTrace, StrayLength],
    by simp [keygenTrace, Refused], Or.inl trivial⟩

/-- The second block is refused. -/
def halfTrace : List (Event Req Ans) :=
  [⟨.sigNew (Text.utf8 "ML-DSA-44".toList), some (.ofLevel .l44)⟩, ⟨.malloc 1312, some 1⟩, ⟨.storePtr .pk (some 1), ()⟩,
    ⟨.malloc 2560, none⟩, ⟨.storePtr .sk none, ()⟩, ⟨.sigFree, ()⟩]

theorem run_half :
    Run Req.keepsLength ((Output.keygen (Text.utf8 "ML-DSA-44".toList)).prog .w64) halfTrace (some qpqcErr) := by
  refine .ask trivial (.ask trivial (.ask trivial ?_))
  exact .ask trivial (.ask trivial (.ask trivial (.ret _)))

/-- **Half a key pair**: the call fails, `*pk` points to a block of 1312 bytes that stays allocated, and `*pk_len` is
what it was. -/
theorem half_a_keypair :
    (∃ tr, Run Req.keepsLength ((Output.keygen (Text.utf8 "ML-DSA-44".toList)).prog .w64) tr (some qpqcErr) ∧
      (stale.memory.after tr).ptr .pk = some 1 ∧ (stale.memory.after tr).blocks = [(1, 1312)] ∧
      (stale.memory.after tr).len .pkLen = 9) ∧
    ¬∀ tr r, Run Req.keepsLength ((Output.keygen (Text.utf8 "ML-DSA-44".toList)).prog .w64) tr r →
      AllOrNothing stale [(.pk, .pkLen), (.sk, .skLen)] (stale.memory.after tr) r := by
  refine ⟨⟨halfTrace, run_half, rfl, rfl, rfl⟩, fun h => ?_⟩
  have hm := congrArg Memory.blocks ((h _ _ run_half).err rfl)
  cases hm

end QorechainPqc.C
