import QorechainPqc.Lib.Prog
import QorechainPqc.Liboqs.Scheme

/-!
# Keys and signatures in the C binding

`qorechain_pqc.c`, the functions over liboqs. Each is a program that asks for what it does not compute itself: liboqs
and pthread calls, `malloc`, and the stores through its out-parameters. Any of the liboqs calls and of the allocations
may fail, which is an answer like others.
-/

namespace QorechainPqc.C

open Program

/-- The out-parameters. -/
inductive Out
  | pk
  | pkLen
  | sk
  | skLen
  | sig
  | sigLen
  | ct
  | ctLen
  | ssLen
  | out
  | outLen
deriving DecidableEq

/-- What the functions ask for. -/
inductive Req
  /-- `OQS_SIG_new`. -/
  | sigNew (alg : Bytes)
  | sigFree
  /-- `OQS_KEM_new`. -/
  | kemNew (alg : Bytes)
  | kemFree
  | malloc (n : Nat)
  | mutexLock
  | mutexUnlock
  /-- `OQS_randombytes_custom_algorithm(qpqc_zero_rng)`. -/
  | customZero
  /-- `OQS_randombytes_switch_algorithm(OQS_RAND_alg_system)`. -/
  | switchSystem
  | keypair (s : OqsSig)
  | sign (s : OqsSig) (msg sk : Bytes)
  | verify (s : OqsSig) (msg sig pk : Bytes)
  | encaps (k : OqsKem) (pk : Bytes)
  | decaps (k : OqsKem) (ct sk : Bytes)
  | storePtr (o : Out) (p : Option Nat)
  | storeLen (o : Out) (n : Nat)

/-- The answers: `NULL` or a record, an address or `NULL`, and whether a liboqs call returned `OQS_SUCCESS`. A sign call
also says what it stored as the length of the signature. -/
abbrev Ans : Req → Type
  | .sigNew _ => Option OqsSig
  | .kemNew _ => Option OqsKem
  | .malloc _ => Option Nat
  | .keypair _ => Bool
  | .sign _ _ _ => Bool × Option Nat
  | .verify _ _ _ _ => Bool
  | .encaps _ _ => Bool
  | .decaps _ _ _ => Bool
  | _ => Unit

instance (q : Req) : Nonempty (Ans q) := by cases q <;> infer_instance

abbrev CProg := Prog Req Ans

/-- `request` with the type of answers of the question. -/
abbrev call (q : Req) : CProg (Ans q) := Prog.request q

def qpqcOk : Int := 0

def qpqcErr : Int := -1

/-- The result code of a liboqs call. -/
def rc (success : Bool) : Int := if success then qpqcOk else qpqcErr

/-- `qpqc_mldsa_keygen`. -/
def qpqcMldsaKeygen (alg : Bytes) : CProg Int := do
  match ← call (.sigNew alg) with
  | none => return qpqcErr
  | some s =>
    let pk ← call (.malloc s.lengthPublicKey)
    call (.storePtr .pk pk)
    let sk ← call (.malloc s.lengthSecretKey)
    call (.storePtr .sk sk)
    if pk = none ∨ sk = none then
      call .sigFree
      return qpqcErr
    call .mutexLock
    let success ← call (.keypair s)
    call .mutexUnlock
    call (.storeLen .pkLen s.lengthPublicKey)
    call (.storeLen .skLen s.lengthSecretKey)
    call .sigFree
    return rc success

/-- `qpqc_zero_rng`. -/
def qpqcZeroRng (out : Bytes) (n : Nat) : Bytes := memset out 0 n

/-- `OQS_SIG_sign(s, *sig, sig_len, msg, msg_len, sk)`, with what it stores through `sig_len`. -/
def oqsSigSign (s : OqsSig) (msg sk : Bytes) : CProg Bool := do
  let r ← call (.sign s msg sk)
  if let some n := r.2 then call (.storeLen .sigLen n)
  return r.1

/-- `qpqc_mldsa_sign`. -/
def qpqcMldsaSign (alg sk msg : Bytes) : CProg Int := do
  match ← call (.sigNew alg) with
  | none => return qpqcErr
  | some s =>
    if sk.length ≠ s.lengthSecretKey then
      call .sigFree
      return qpqcErr
    let sig ← call (.malloc s.lengthSignature)
    call (.storePtr .sig sig)
    if sig = none then
      call .sigFree
      return qpqcErr
    call .mutexLock
    call .customZero
    let success ← oqsSigSign s msg sk
    call .switchSystem
    call .mutexUnlock
    call .sigFree
    return rc success

/-- A key of the length of the scheme passes the check. -/
theorem qpqcMldsaSign_of_length {s : OqsSig} {sk : Bytes} (h : sk.length = s.lengthSecretKey) (alg msg : Bytes) :
    ∃ k, qpqcMldsaSign alg sk msg = .ask (.sigNew alg) k ∧ k (some s) = do
      let sig ← call (.malloc s.lengthSignature)
      call (.storePtr .sig sig)
      if sig = none then
        call .sigFree
        return qpqcErr
      call .mutexLock
      call .customZero
      let success ← oqsSigSign s msg sk
      call .switchSystem
      call .mutexUnlock
      call .sigFree
      return rc success :=
  ⟨_, rfl, if_neg (not_not_intro h)⟩

/-- `qpqc_mldsa_sign_hedged`. -/
def qpqcMldsaSignHedged (alg sk msg : Bytes) : CProg Int := do
  match ← call (.sigNew alg) with
  | none => return qpqcErr
  | some s =>
    if sk.length ≠ s.lengthSecretKey then
      call .sigFree
      return qpqcErr
    let sig ← call (.malloc s.lengthSignature)
    call (.storePtr .sig sig)
    if sig = none then
      call .sigFree
      return qpqcErr
    call .mutexLock
    let success ← oqsSigSign s msg sk
    call .mutexUnlock
    call .sigFree
    return rc success

/-- `qpqc_mldsa_verify`. -/
def qpqcMldsaVerify (alg pk msg sig : Bytes) : CProg Int := do
  match ← call (.sigNew alg) with
  | none => return qpqcErr
  | some s =>
    if pk.length ≠ s.lengthPublicKey then
      call .sigFree
      return qpqcErr
    let success ← call (.verify s msg sig pk)
    call .sigFree
    return if success then 1 else 0

/-- `qpqc_mlkem_decapsulate`. -/
def qpqcMlkemDecapsulate (alg sk ct : Bytes) : CProg Int := do
  match ← call (.kemNew alg) with
  | none => return qpqcErr
  | some k =>
    if sk.length ≠ k.lengthSecretKey ∨ ct.length ≠ k.lengthCiphertext then
      call .kemFree
      return qpqcErr
    let success ← call (.decaps k ct sk)
    call (.storeLen .ssLen k.lengthSharedSecret)
    call .kemFree
    return rc success

/-- `qpqc_mlkem_encapsulate`. -/
def qpqcMlkemEncapsulate (alg pk : Bytes) : CProg Int := do
  match ← call (.kemNew alg) with
  | none => return qpqcErr
  | some k =>
    if pk.length ≠ k.lengthPublicKey then
      call .kemFree
      return qpqcErr
    let ct ← call (.malloc k.lengthCiphertext)
    call (.storePtr .ct ct)
    if ct = none then
      call .kemFree
      return qpqcErr
    call .mutexLock
    let success ← call (.encaps k pk)
    call .mutexUnlock
    call (.storeLen .ctLen k.lengthCiphertext)
    call (.storeLen .ssLen k.lengthSharedSecret)
    call .kemFree
    return rc success

/-! ## Calls -/

/-- A call of the API, with its arguments. -/
inductive Call
  | keygen (alg : Bytes)
  | sign (alg sk msg : Bytes)
  | signHedged (alg sk msg : Bytes)
  | verify (alg pk msg sig : Bytes)
  | decapsulate (alg sk ct : Bytes)
  | encapsulate (alg pk : Bytes)

/-- The function that a call runs. -/
def Call.prog : Call → CProg Int
  | keygen alg => qpqcMldsaKeygen alg
  | sign alg sk msg => qpqcMldsaSign alg sk msg
  | signHedged alg sk msg => qpqcMldsaSignHedged alg sk msg
  | verify alg pk msg sig => qpqcMldsaVerify alg pk msg sig
  | decapsulate alg sk ct => qpqcMlkemDecapsulate alg sk ct
  | encapsulate alg pk => qpqcMlkemEncapsulate alg pk

end QorechainPqc.C
