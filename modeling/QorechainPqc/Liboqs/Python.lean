import QorechainPqc.Lib.Raise
import QorechainPqc.Liboqs.Scheme
import QorechainPqc.SignBytes.Python

/-!
# Keys and signatures in the Python binding

`qorpqc/__init__.py`, the classes over liboqs-python. A method asks for what it does not compute itself: the lock, the
liboqs calls, and at a `boundary` whether an asynchronous exception lands there. Each of these may raise. The boundaries
follow the call instructions; those next to the two switches of the random number generator have names of their own. An
exception may also land in the filler that liboqs calls back.
-/

namespace QorechainPqc.Python

open Failing Program MonadExcept

/-! ## Values -/

/-- The exceptions. -/
inductive Exn
  | valueError (text : Str)
  | keyError (key : Str)
  /-- Another `Exception`. -/
  | exception
  /-- `KeyboardInterrupt`, and what else is not an `Exception`. -/
  | keyboardInterrupt
deriving DecidableEq

/-- `isinstance(e, Exception)`. -/
def Exn.isException : Exn → Bool
  | .keyboardInterrupt => false
  | _ => true

/-- A `bytes` object: what it holds, and what `len()` gives of it, asked once and asked again. An object of a subclass
may have a `__len__` of its own. -/
structure BytesObject where
  contents : Bytes
  len : Except Exn Nat
  lenAgain : Except Exn Nat

/-- An object of the type itself. -/
def BytesObject.ofBytes (b : Bytes) : BytesObject := ⟨b, .ok b.length, .ok b.length⟩

/-- An argument: a value that passes for `bytes`, a `bytearray` or a `memoryview`, with what `bytes(value)` does; a
value of another type, with what `type(value).__name__` does; or a value whose `__class__` raises when `isinstance` asks
for it. -/
inductive Arg
  | bytesLike (content : Except Exn BytesObject)
  | other (typeName : Except Exn Str)
  | untestable (e : Exn)

/-- A `bytes` object as an argument. -/
def Arg.ofBytes (b : Bytes) : Arg := .bytesLike (.ok (.ofBytes b))

/-- A number in an f-string. -/
def dec (n : Nat) : Str := str (toString n)

/-- `_require_bytes`. -/
def requireBytes (fn arg : Str) (value : Arg) (length : Option Nat) : Except Exn BytesObject :=
  match value with
  | .untestable e => throw e
  | .other typeName => do
    let want := match length with
      | some n => str " of " ++ dec n ++ str " bytes"
      | none => []
    throw (.valueError (fn ++ str ": " ++ arg ++ str " must be bytes" ++ want ++ str ", got " ++ (← typeName)))
  | .bytesLike content => do
    let value ← content
    match length with
    | none => pure value
    | some n =>
      if (← value.len) ≠ n then
        throw (.valueError (fn ++ str ": " ++ arg ++ str " must be exactly " ++ dec n ++ str " bytes, got " ++
          dec (← value.lenAgain)))
      else pure value

/-- A value that can be read, of the length that `len()` reports. -/
theorem requireBytes_of_len {fn arg : Str} {b : BytesObject} {length : Option Nat} (h : ∀ n ∈ length, b.len = .ok n) :
    requireBytes fn arg (.bytesLike (.ok b)) length = .ok b := by
  cases length with
  | none => rfl
  | some n => simp [requireBytes, h n rfl]

theorem requireBytes_ofBytes {fn arg : Str} {b : Bytes} {length : Option Nat} (h : ∀ n ∈ length, b.length = n) :
    requireBytes fn arg (.ofBytes b) length = .ok (.ofBytes b) :=
  requireBytes_of_len fun n hn => congrArg Except.ok (h n hn)

/-- A value is returned only if it can be read and reports the length. -/
theorem requireBytes_eq_ok {fn arg : Str} {value : Arg} {length : Option Nat} {b : BytesObject}
    (h : requireBytes fn arg value length = .ok b) : value = .bytesLike (.ok b) ∧ ∀ n ∈ length, b.len = .ok n := by
  cases value with
  | untestable e => cases h
  | other typeName => cases typeName <;> cases h
  | bytesLike content =>
    cases content with
    | error e => cases h
    | ok value =>
      cases length with
      | none =>
        cases h
        exact ⟨rfl, nofun⟩
      | some n =>
        cases hlen : value.len with
        | error e =>
          simp only [requireBytes, ok_bind, hlen] at h
          cases h
        | ok m =>
          by_cases hn : m = n
          · subst hn
            rw [requireBytes_of_len fun _ hm => by rw [hlen, Option.some.inj hm]] at h
            cases h
            exact ⟨rfl, fun _ hm => by rw [hlen, Option.some.inj hm]⟩
          · simp only [requireBytes, ok_bind, hlen, ne_eq, hn, not_false_eq_true, if_true] at h
            cases hagain : value.lenAgain with
            | error e => rw [hagain] at h; cases h
            | ok k => rw [hagain] at h; cases h

/-! ## The zero filler -/

/-- `_zero_fill` on a buffer. An exception may land in it before the call of `ctypes.memset`; later ones come when the
buffer is filled. -/
def zeroFill (landed : Option Exn) (n : Nat) : ExceptT Exn (StateM Bytes) Unit := do
  if let some e := landed then throw e
  modify fun buf => memset buf 0 n

/-- `_ZERO_RNG`: ctypes hands the buffer on, and drops what `_zero_fill` raises. -/
def zeroRng (landed : Option Exn) (buf : Bytes) (n : Nat) : Bytes := ((zeroFill landed n).run.run buf).2

@[simp] theorem zeroRng_none (buf : Bytes) (n : Nat) : zeroRng none buf n = memset buf 0 n := rfl

/-! ## Requests -/

/-- Where an exception may land that no request raises. -/
inductive Point
  | entry
  | locked
  /-- `OQS_randombytes_custom_algorithm(_ZERO_RNG)` has returned, and the `try` block is not entered. -/
  | zeroed
  | body
  /-- In the `finally` block, before the switch. -/
  | restoring
  | restored
  | unlocked
  /-- In `_zero_fill`, when liboqs draws. -/
  | filling
deriving DecidableEq

/-- An `oqs.Signature` object. -/
structure Signature where
  alg : Str
  secretKey : Option BytesObject

/-- An `oqs.KeyEncapsulation` object. -/
structure KeyEncapsulation where
  alg : Str
  secretKey : Option BytesObject

/-- What the methods ask for. -/
inductive Req
  | boundary (p : Point)
  | lockAcquire
  | lockRelease
  /-- `oqs.native().OQS_randombytes_custom_algorithm(_ZERO_RNG)`. -/
  | customZero
  /-- `_oqs_rand.randombytes_switch_algorithm("system")`. -/
  | switchSystem
  | signatureNew (s : Signature)
  | signatureFree (s : Signature)
  | generateKeypair (s : Signature)
  | exportSecretKey (s : Signature)
  | sign (s : Signature) (message : BytesObject)
  | verify (s : Signature) (message signature publicKey : BytesObject)
  | kemNew (k : KeyEncapsulation)
  | kemFree (k : KeyEncapsulation)
  | kemGenerateKeypair (k : KeyEncapsulation)
  | kemExportSecretKey (k : KeyEncapsulation)
  | encapSecret (k : KeyEncapsulation) (publicKey : BytesObject)
  | decapSecret (k : KeyEncapsulation) (ciphertext : BytesObject)

/-- The results. -/
abbrev Res : Req → Type
  | .generateKeypair _ => Bytes
  | .exportSecretKey _ => Bytes
  | .sign _ _ => Bytes
  | .verify _ _ _ _ => Bool
  | .kemGenerateKeypair _ => Bytes
  | .kemExportSecretKey _ => Bytes
  | .encapSecret _ _ => Bytes × Bytes
  | .decapSecret _ _ => Bytes
  | _ => Unit

/-- A method: what is asked for may raise, and so may the method. -/
abbrev Py := Raising Exn Req Res

/-- `ask` with the type of results of the request. -/
abbrev call (q : Req) : Py (Res q) := Raising.ask q

/-! ## Blocks -/

section Blocks

variable {α : Type}

/-- `with _rng_lock:`; what interrupts the wait for the lock does so without taking it. -/
def withLock (block : Py α) : Py α := do
  call (.boundary .entry)
  call .lockAcquire
  let a ← try
    call (.boundary .locked)
    block
  finally
    call .lockRelease
  call (.boundary .unlocked)
  return a

/-- `with oqs.Signature(…) as s:`. -/
def withSignature (s : Signature) (block : Py α) : Py α := do
  call (.signatureNew s)
  call (.boundary .body)
  try
    block
  finally
    call (.signatureFree s)

/-- `with oqs.KeyEncapsulation(…) as k:`. -/
def withKem (k : KeyEncapsulation) (block : Py α) : Py α := do
  call (.kemNew k)
  call (.boundary .body)
  try
    block
  finally
    call (.kemFree k)

variable {G : Type} {L : Logic Req (Refusable Exn Res) G} {g : G} {block : Py α} {q q' : Req}

/-- A block that returns the result of one request. -/
theorem stays_result (hq : Raising.Stays L g (call q)) (hbody : Raising.Stays L g (call (.boundary .body))) :
    Raising.Stays L g (do let a ← call q; call (.boundary .body); return a) :=
  hq.bind fun _ => hbody.bind fun _ => Raising.stays_pure

/-- A block that returns the results of two. -/
theorem stays_results (hq : Raising.Stays L g (call q)) (hq' : Raising.Stays L g (call q'))
    (hbody : Raising.Stays L g (call (.boundary .body))) : Raising.Stays L g
      (do let a ← call q; call (.boundary .body); let b ← call q'; call (.boundary .body); return (a, b)) :=
  hq.bind fun _ => hbody.bind fun _ => hq'.bind fun _ => hbody.bind fun _ => Raising.stays_pure

theorem stays_withSignature {s : Signature} (hnew : Raising.Stays L g (call (.signatureNew s)))
    (hbody : Raising.Stays L g (call (.boundary .body))) (hblock : Raising.Stays L g block)
    (hfree : Raising.Stays L g (call (.signatureFree s))) : Raising.Stays L g (withSignature s block) :=
  hnew.bind fun _ => hbody.bind fun _ => hblock.tryFinally hfree

theorem stays_withKem {k : KeyEncapsulation} (hnew : Raising.Stays L g (call (.kemNew k)))
    (hbody : Raising.Stays L g (call (.boundary .body))) (hblock : Raising.Stays L g block)
    (hfree : Raising.Stays L g (call (.kemFree k))) : Raising.Stays L g (withKem k block) :=
  hnew.bind fun _ => hbody.bind fun _ => hblock.tryFinally hfree

end Blocks

/-! ## ML-DSA -/

/-- `table[key]`. -/
def getItem {α : Type} (table : List (Str × α)) (key : Str) : Except Exn α :=
  match table.lookup key with
  | some value => .ok value
  | none => .error (.keyError key)

def mldsaLevels : List (Str × Str) :=
  [(str "ml-dsa-44", str "ML-DSA-44"), (str "ml-dsa-65", str "ML-DSA-65"), (str "ml-dsa-87", str "ML-DSA-87")]

/-- Public key, secret key, signature. -/
def mldsaLengths : List (Str × Nat × Nat × Nat) :=
  [(str "ml-dsa-44", 1312, 2560, 2420), (str "ml-dsa-65", 1952, 4032, 3309), (str "ml-dsa-87", 2592, 4896, 4627)]

/-- The attributes of an `MlDsa` object. -/
structure MlDsa where
  alg : Str
  level : Str
  publicKeyLen : Nat
  secretKeyLen : Nat
  signatureLen : Nat
deriving DecidableEq

namespace MlDsa

/-- `MlDsa.__init__`. -/
def init (level : Str) : Except Exn MlDsa := do
  let alg ← getItem mldsaLevels level
  let (publicKeyLen, secretKeyLen, signatureLen) ← getItem mldsaLengths level
  return ⟨alg, level, publicKeyLen, secretKeyLen, signatureLen⟩

/-- The object of a level. -/
def ofLevel (l : MlDsa.Level) : MlDsa :=
  ⟨str l.oqsName, str l.name, l.sizes.publicKey, l.sizes.secretKey, l.sizes.signature⟩

theorem init_name (l : MlDsa.Level) : init (str l.name) = .ok (ofLevel l) := by
  cases l <;> decide

/-- There are no other objects. -/
theorem init_eq_ok {level : Str} {self : MlDsa} (h : init level = .ok self) : ∃ l : MlDsa.Level, self = ofLevel l := by
  have hof (l : MlDsa.Level) (hl : level = str l.name) : ∃ l : MlDsa.Level, self = ofLevel l := by
    rw [hl, init_name] at h
    exact ⟨l, (Except.ok.inj h).symm⟩
  by_cases h44 : level = str "ml-dsa-44"
  · exact hof .l44 h44
  by_cases h65 : level = str "ml-dsa-65"
  · exact hof .l65 h65
  by_cases h87 : level = str "ml-dsa-87"
  · exact hof .l87 h87
  · have hget : getItem mldsaLevels level = .error (.keyError level) := by
      simp only [getItem, mldsaLevels, List.lookup_cons, List.lookup_nil, beq_false_of_ne h44, beq_false_of_ne h65,
        beq_false_of_ne h87]
    rw [init, hget] at h
    cases h

def keygen (self : MlDsa) : Py (Bytes × Bytes) :=
  let s : Signature := ⟨self.alg, none⟩
  withLock <| withSignature s do
    let pk ← call (.generateKeypair s)
    call (.boundary .body)
    let sk ← call (.exportSecretKey s)
    call (.boundary .body)
    return (pk, sk)

/-- `with oqs.Signature(self.alg, secret_key) as s: return s.sign(message)`. -/
def signWith (s : Signature) (message : BytesObject) : Py Bytes :=
  withSignature s do
    let signature ← call (.sign s message)
    call (.boundary .body)
    return signature

/-- The deterministic path of `sign`. -/
def signDeterministic (s : Signature) (message : BytesObject) : Py Bytes :=
  withLock do
    call .customZero
    call (.boundary .zeroed)
    try
      signWith s message
    finally
      call (.boundary .restoring)
      call .switchSystem
      call (.boundary .restored)

def sign (self : MlDsa) (secretKey message : Arg) (hedged : Bool) : Py Bytes := do
  let fn := self.level ++ str ".sign"
  let secretKey ← ofExcept (requireBytes fn (str "secret_key") secretKey (some self.secretKeyLen))
  let message ← ofExcept (requireBytes fn (str "message") message none)
  let s : Signature := ⟨self.alg, some secretKey⟩
  if hedged then withLock (signWith s message) else signDeterministic s message

/-- The deterministic path, for arguments of the right sizes. -/
theorem sign_ofBytes {self : MlDsa} {sk message : Bytes} (h : sk.length = self.secretKeyLen) :
    self.sign (.ofBytes sk) (.ofBytes message) false =
      signDeterministic ⟨self.alg, some (.ofBytes sk)⟩ (.ofBytes message) := by
  have hsk (fn arg : Str) : requireBytes fn arg (.ofBytes sk) (some self.secretKeyLen) = .ok (.ofBytes sk) :=
    requireBytes_ofBytes fun n hn => h.trans (Option.some.inj hn)
  have hmsg (fn arg : Str) : requireBytes fn arg (.ofBytes message) none = .ok (.ofBytes message) := rfl
  simp only [sign, hsk, hmsg]
  rfl

/-- `len(public_key) != self.public_key_len or len(signature) != self.signature_len`. -/
def badLengths (self : MlDsa) (publicKey signature : BytesObject) : Except Exn Bool := do
  if (← publicKey.len) ≠ self.publicKeyLen then return true
  return (← signature.len) ≠ self.signatureLen

/-- `verify`; the type tests, the conversions with `bytes` and the lengths stand outside the `try` block. -/
def verify (self : MlDsa) (publicKey message signature : Arg) : Py Bool :=
  match publicKey, message, signature with
  | .bytesLike publicKey, .bytesLike message, .bytesLike signature => do
    let publicKey ← ofExcept publicKey
    let message ← ofExcept message
    let signature ← ofExcept signature
    if ← ofExcept (self.badLengths publicKey signature) then
      pure false
    else
      let s : Signature := ⟨self.alg, none⟩
      try
        withSignature s do
          let valid ← call (.verify s message signature publicKey)
          call (.boundary .body)
          pure valid
      catch e =>
        if e.isException then pure false else throw e
  | .untestable e, _, _ => throw e
  | .bytesLike _, .untestable e, _ => throw e
  | .bytesLike _, .bytesLike _, .untestable e => throw e
  | _, _, _ => pure false

end MlDsa

/-! ## ML-KEM -/

def mlkemLevels : List (Str × Str) :=
  [(str "ml-kem-512", str "ML-KEM-512"), (str "ml-kem-768", str "ML-KEM-768"), (str "ml-kem-1024", str "ML-KEM-1024")]

/-- Public key, secret key, ciphertext. -/
def mlkemLengths : List (Str × Nat × Nat × Nat) :=
  [(str "ml-kem-512", 800, 1632, 768), (str "ml-kem-768", 1184, 2400, 1088), (str "ml-kem-1024", 1568, 3168, 1568)]

/-- The attributes of an `MlKem` object. -/
structure MlKem where
  alg : Str
  level : Str
  publicKeyLen : Nat
  secretKeyLen : Nat
  ciphertextLen : Nat
deriving DecidableEq

namespace MlKem

/-- `MlKem.__init__`. -/
def init (level : Str) : Except Exn MlKem := do
  let alg ← getItem mlkemLevels level
  let (publicKeyLen, secretKeyLen, ciphertextLen) ← getItem mlkemLengths level
  return ⟨alg, level, publicKeyLen, secretKeyLen, ciphertextLen⟩

/-- The object of a level. -/
def ofLevel (l : MlKem.Level) : MlKem :=
  ⟨str l.oqsName, str l.name, l.sizes.publicKey, l.sizes.secretKey, l.sizes.ciphertext⟩

theorem init_name (l : MlKem.Level) : init (str l.name) = .ok (ofLevel l) := by
  cases l <;> decide

def keygen (self : MlKem) : Py (Bytes × Bytes) :=
  let k : KeyEncapsulation := ⟨self.alg, none⟩
  withLock <| withKem k do
    let pk ← call (.kemGenerateKeypair k)
    call (.boundary .body)
    let sk ← call (.kemExportSecretKey k)
    call (.boundary .body)
    return (pk, sk)

def encapsulate (self : MlKem) (publicKey : Arg) : Py (Bytes × Bytes) := do
  let publicKey ← ofExcept (requireBytes (self.level ++ str ".encapsulate") (str "public_key") publicKey
    (some self.publicKeyLen))
  let k : KeyEncapsulation := ⟨self.alg, none⟩
  withLock <| withKem k do
    let r ← call (.encapSecret k publicKey)
    call (.boundary .body)
    return r

def decapsulate (self : MlKem) (secretKey ciphertext : Arg) : Py Bytes := do
  let fn := self.level ++ str ".decapsulate"
  let secretKey ← ofExcept (requireBytes fn (str "secret_key") secretKey (some self.secretKeyLen))
  let ciphertext ← ofExcept (requireBytes fn (str "ciphertext") ciphertext (some self.ciphertextLen))
  let k : KeyEncapsulation := ⟨self.alg, some secretKey⟩
  withKem k do
    let sharedSecret ← call (.decapSecret k ciphertext)
    call (.boundary .body)
    return sharedSecret

end MlKem

/-! ## Calls -/

/-- A call of the API, with its arguments. -/
inductive Call
  | keygen (self : MlDsa)
  | sign (self : MlDsa) (secretKey message : Arg) (hedged : Bool)
  | verify (self : MlDsa) (publicKey message signature : Arg)
  | kemKeygen (self : MlKem)
  | encapsulate (self : MlKem) (publicKey : Arg)
  | decapsulate (self : MlKem) (secretKey ciphertext : Arg)

/-- The method that a call runs; what it returns or raises is dropped. -/
def Call.prog : Call → Prog Req (Refusable Exn Res) Unit
  | keygen self => (fun _ => ()) <$> self.keygen.run
  | sign self secretKey message hedged => (fun _ => ()) <$> (self.sign secretKey message hedged).run
  | verify self publicKey message signature => (fun _ => ()) <$> (self.verify publicKey message signature).run
  | kemKeygen self => (fun _ => ()) <$> self.keygen.run
  | encapsulate self publicKey => (fun _ => ()) <$> (self.encapsulate publicKey).run
  | decapsulate self secretKey ciphertext => (fun _ => ()) <$> (self.decapsulate secretKey ciphertext).run

end QorechainPqc.Python
