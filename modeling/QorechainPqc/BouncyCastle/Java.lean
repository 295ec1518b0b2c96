import QorechainPqc.Lib.Raise
import QorechainPqc.Liboqs.Scheme
import QorechainPqc.Verify.Compiled

/-!
# The public methods of the Java binding

`Pqc.java` over Bouncy Castle, all public methods but `mldsaVerify`. A method checks its arguments, and what it does not
compute itself it asks of Bouncy Castle: to construct objects, and to call their methods. Each of these may throw. The
random number generators are new ones of the platform.

Each check has a lemma that says what it throws and what it has checked when it passes.
-/

namespace QorechainPqc.Java

open Failing Program MonadExcept

/-! ## Requests -/

/-- A reference to an object of Bouncy Castle. -/
abbrev Ref := Nat

/-- What the methods ask for. -/
inductive Req
  | newMldsaKeyPairGenerator
  | newMldsaKeyGenerationParameters (params : MlDsa.Level)
  | newMldsaPrivateKeyParameters (params : MlDsa.Level) (seed : Bytes)
  | newMldsaSigner
  | newParametersWithRandom (key : Ref)
  | newMlkemKeyPairGenerator
  | newMlkemKeyGenerationParameters (params : MlKem.Level)
  | newMlkemPublicKeyParameters (params : MlKem.Level) (encoding : Bytes)
  | newMlkemPrivateKeyParameters (params : MlKem.Level) (encoding : Bytes)
  | newMlkemGenerator
  | newMlkemExtractor (key : Ref)
  | newShakeDigest (bits : Nat)
  /-- `init` of a generator of key pairs. -/
  | init (generator parameters : Ref)
  /-- `init` of a signer. -/
  | initSigner (signer : Ref) (forSigning : Bool) (key : Ref)
  | generateKeyPair (generator : Ref)
  | getPublic (keyPair : Ref)
  | getPrivate (keyPair : Ref)
  | getPublicKeyParameters (key : Ref)
  | getEncoded (key : Ref)
  | getSeed (key : Ref)
  /-- `update` of a signer or a digest, with all of an array. -/
  | update (object : Ref) (input : Bytes)
  | generateSignature (signer : Ref)
  /-- `doFinal` into an array of the given length, all of it. -/
  | doFinal (digest : Ref) (outLen : Nat)
  | generateEncapsulated (generator key : Ref)
  | getEncapsulation (encapsulated : Ref)
  | getSecret (encapsulated : Ref)
  /-- `extractSecret` of an extractor for a key of the parameter set `params`. -/
  | extractSecret (params : MlKem.Level) (extractor : Ref) (encapsulation : Bytes)

/-- The results. -/
abbrev Res : Req → Type
  | .init _ _ => Unit
  | .initSigner _ _ _ => Unit
  | .update _ _ => Unit
  | .getEncoded _ => Bytes
  | .getSeed _ => Bytes
  | .generateSignature _ => Bytes
  | .doFinal _ _ => Bytes
  | .getEncapsulation _ => Bytes
  | .getSecret _ => Bytes
  | .extractSecret _ _ _ => Bytes
  | _ => Ref

/-- A method: what is asked for may throw, and so may the method. -/
abbrev Jv := Raising Thrown Req Res

/-- `ask` with the type of results of the request. -/
abbrev call (q : Req) : Jv (Res q) := Raising.ask q

section Checks

variable {α : Type}

/-- A check, or another computation that asks for nothing. -/
abbrev check (x : Except Thrown α) : Jv α := ofExcept x

/-- What the exceptions of the sign-bytes are. -/
def Stop.thrown : Stop → Thrown
  | .illegalArgument text shown => .illegalArgument (str text ++ match shown with
    | some n => str (toString n)
    | none => [])
  | .nullPointer => .nullPointer
  | .bufferOverflow => .bufferOverflow
  | .outOfMemory => .error

/-- A computation over the sign-bytes. -/
abbrev lift (x : Except Stop α) : Jv α := check (x.mapError Stop.thrown)

end Checks

/-! ## Input checking -/

def mldsaSeedLength : Nat := 32

def mldsaExpandedSecretKeyLength (level : Str) : Except Thrown Nat :=
  mldsaSwitch level fun | .l44 => 2560 | .l65 => 4032 | .l87 => 4896

/-- A `switch` over the names of the ML-KEM levels; any other name throws. -/
def mlkemSwitch {α : Type} (level : Str) (f : MlKem.Level → α) : Except Thrown α :=
  if level = str "ml-kem-512" then .ok (f .l512)
  else if level = str "ml-kem-768" then .ok (f .l768)
  else if level = str "ml-kem-1024" then .ok (f .l1024)
  else .error (unknownLevel (str "ML-KEM") level)

/-- `mlkemLengths`: public key, secret key, ciphertext. -/
def mlkemLengths (level : Str) : Except Thrown (List Nat) :=
  mlkemSwitch level fun | .l512 => [800, 1632, 768] | .l768 => [1184, 2400, 1088] | .l1024 => [1568, 3168, 1568]

def mlkemParams (level : Str) : Except Thrown MlKem.Level := mlkemSwitch level id

/-- `a[i]`. -/
def element (a : List Nat) (i : Nat) : Except Thrown Nat :=
  match a[i]? with
  | some n => .ok n
  | none => .error .arrayIndexOutOfBounds

/-- `new byte[n]`: its length. -/
def newByteArray (n : Int) : Except Thrown Nat := if n < 0 then .error .negativeArraySize else .ok n.toNat

/-- `requireLevel`. -/
def requireLevel (fn : String) : Option Str → Except Thrown Str
  | none => .error (.illegalArgument (str (fn ++ ": level must not be null")))
  | some level => .ok level

/-- `requireNonNull`, with the exceptions of this module. -/
def requireArray (fn arg : String) (value : Option Bytes) : Except Thrown Bytes :=
  (requireNonNull fn arg value).mapError Stop.thrown

/-- `requireLength`. -/
def requireLength (fn arg : String) (value : Option Bytes) (length : Nat) : Except Thrown Bytes := do
  let value ← requireArray fn arg value
  if value.length ≠ length then
    throw (.illegalArgument (str (fn ++ ": " ++ arg ++ " must be exactly " ++ toString length ++ " bytes, got " ++
      toString value.length)))
  return value

/-- `requireMldsaSeed`. -/
def requireMldsaSeed (fn : String) (level : Str) (arg : String) (seed : Option Bytes) : Except Thrown Bytes := do
  let seed ← requireArray fn arg seed
  if seed.length = mldsaSeedLength then return seed
  if seed.length = (← mldsaExpandedSecretKeyLength level) then
    throw (.illegalArgument (str (fn ++ ": " ++ arg ++ " is " ++ toString seed.length ++ " bytes, the ") ++ level ++
      str (" EXPANDED secret key used by the JS/Go/Rust/Python/C bindings. This Java " ++
        "binding takes the 32-byte FIPS-204 key-generation seed (xi) instead. The first 32 " ++
        "bytes of an expanded key are rho, which is public (also the first 32 bytes of the " ++
        "public key), so they must never be used as a seed. Pass the 32-byte seed returned " ++
        "by mldsaKeygen / mldsaKeygenFromSeed.")))
  throw (.illegalArgument (str (fn ++ ": " ++ arg ++ " must be exactly " ++ toString mldsaSeedLength ++
    " bytes (the FIPS-204 seed xi), got " ++ toString seed.length)))

/-! ### What the checks check -/

def Thrown.IsIllegalArgument (e : Thrown) : Prop := ∃ text, e = .illegalArgument text

/-- A computation throws no more than an `IllegalArgumentException`, and what it gives satisfies `post`. -/
abbrev Checks {α : Type} (post : α → Prop) (x : Except Thrown α) : Prop := Ends post Thrown.IsIllegalArgument x

theorem mldsaSwitch_checks {α : Type} (level : Str) (f : MlDsa.Level → α) :
    Checks (fun a => ∃ l : MlDsa.Level, level = str l.name ∧ a = f l) (mldsaSwitch level f) := by
  by_cases h : ∃ l : MlDsa.Level, level = str l.name
  · obtain ⟨l, rfl⟩ := h
    rw [mldsaSwitch_name]
    exact ⟨l, rfl, rfl⟩
  · rw [mldsaSwitch_other f fun l hl => h ⟨l, hl⟩]
    exact ⟨_, rfl⟩

theorem mlkemSwitch_name {α : Type} (f : MlKem.Level → α) (l : MlKem.Level) :
    mlkemSwitch (str l.name) f = .ok (f l) := by
  have h768 : str "ml-kem-768" ≠ str "ml-kem-512" := by decide
  have h1024 : str "ml-kem-1024" ≠ str "ml-kem-512" := by decide
  have h1024' : str "ml-kem-1024" ≠ str "ml-kem-768" := by decide
  cases l with
  | l512 => exact if_pos rfl
  | l768 => exact (if_neg h768).trans (if_pos rfl)
  | l1024 => exact (if_neg h1024).trans ((if_neg h1024').trans (if_pos rfl))

theorem mlkem_name_inj {l l' : MlKem.Level} (h : str l.name = str l'.name) : l = l' := by
  have heq := mlkemSwitch_name id l
  rw [h, mlkemSwitch_name] at heq
  exact (Except.ok.inj heq).symm

theorem mlkemSwitch_checks {α : Type} (level : Str) (f : MlKem.Level → α) :
    Checks (fun a => ∃ l : MlKem.Level, level = str l.name ∧ a = f l) (mlkemSwitch level f) := by
  unfold mlkemSwitch
  split
  · exact ⟨.l512, ‹_›, rfl⟩
  · split
    · exact ⟨.l768, ‹_›, rfl⟩
    · split
      · exact ⟨.l1024, ‹_›, rfl⟩
      · exact ⟨_, rfl⟩

theorem mlkemLengths_checks (level : Str) : Checks (fun len => ∃ l : MlKem.Level, level = str l.name ∧
    len = [l.sizes.publicKey, l.sizes.secretKey, l.sizes.ciphertext]) (mlkemLengths level) := by
  refine (mlkemSwitch_checks level _).mono ?_
  rintro len ⟨l, hl, rfl⟩
  refine ⟨l, hl, ?_⟩
  cases l <;> rfl

theorem element_checks {a : List Nat} {i n : Nat} (h : a[i]? = some n) : Checks (fun m => m = n) (element a i) := by
  rw [element, h]
  exact rfl

theorem newByteArray_checks {n : Int} (h : 0 ≤ n) : Checks (fun _ => True) (newByteArray n) := by
  rw [newByteArray, if_neg (Int.not_lt.mpr h)]
  trivial

theorem requireLevel_checks (fn : String) (level : Option Str) :
    Checks (fun name => level = some name) (requireLevel fn level) := by
  cases level with
  | none => exact ⟨_, rfl⟩
  | some name => exact rfl

theorem requireArray_checks (fn arg : String) (value : Option Bytes) :
    Checks (fun a => value = some a) (requireArray fn arg value) := by
  cases value with
  | none => exact ⟨_, rfl⟩
  | some a => exact rfl

theorem requireLength_checks (fn arg : String) (value : Option Bytes) (length : Nat) :
    Checks (fun a => value = some a ∧ a.length = length) (requireLength fn arg value length) := by
  refine (requireArray_checks fn arg value).bind fun a ha => ?_
  by_cases hlen : a.length = length
  · rw [if_neg (not_not_intro hlen)]
    exact ⟨ha, hlen⟩
  · rw [if_pos hlen]
    exact ⟨_, rfl⟩

theorem requireMldsaSeed_checks (fn : String) (level : Str) (arg : String) (seed : Option Bytes) :
    Checks (fun a => seed = some a ∧ a.length = 32) (requireMldsaSeed fn level arg seed) := by
  refine (requireArray_checks fn arg seed).bind fun a ha => ?_
  by_cases hlen : a.length = mldsaSeedLength
  · rw [if_pos hlen]
    exact ⟨ha, hlen⟩
  · rw [if_neg hlen]
    refine (mldsaSwitch_checks level _).bind fun n _ => ?_
    split
    · exact ⟨_, rfl⟩
    · exact ⟨_, rfl⟩

/-! ## ML-DSA -/

/-- `mldsaKeygen`: the public key and the seed. -/
def mldsaKeygen (level : Option Str) : Jv (Bytes × Bytes) := do
  let level ← check (requireLevel "mldsaKeygen" level)
  let g ← call .newMldsaKeyPairGenerator
  let params ← check (mldsaParams level)
  let parameters ← call (.newMldsaKeyGenerationParameters params)
  call (.init g parameters)
  let kp ← call (.generateKeyPair g)
  let publicKey ← call (.getPublic kp)
  let pk ← call (.getEncoded publicKey)
  let privateKey ← call (.getPrivate kp)
  let sk ← call (.getSeed privateKey)
  return (pk, sk)

/-- `mldsaKeygenFromSeed`. -/
def mldsaKeygenFromSeed (level : Option Str) (seed : Option Bytes) : Jv (Bytes × Bytes) := do
  let level ← check (requireLevel "mldsaKeygenFromSeed" level)
  let seed ← check (requireMldsaSeed "mldsaKeygenFromSeed" level "seed" seed)
  let params ← check (mldsaParams level)
  let sk ← call (.newMldsaPrivateKeyParameters params seed)
  let publicKey ← call (.getPublicKeyParameters sk)
  let pk ← call (.getEncoded publicKey)
  let seed ← call (.getSeed sk)
  return (pk, seed)

/-- The body of the two signing methods; `signingKey` makes of the private key what the signer is initialised with. -/
def signWith (fn : String) (signingKey : Ref → Jv Ref) (level : Option Str) (secretKey message : Option Bytes) :
    Jv Bytes := do
  let level ← check (requireLevel fn level)
  let secretKey ← check (requireMldsaSeed fn level "secretKey" secretKey)
  let message ← check (requireArray fn "message" message)
  let params ← check (mldsaParams level)
  let sk ← call (.newMldsaPrivateKeyParameters params secretKey)
  let signer ← call .newMldsaSigner
  let key ← signingKey sk
  call (.initSigner signer true key)
  call (.update signer message)
  try
    call (.generateSignature signer)
  catch e =>
    if e = .crypto then throw (.illegalState (str "ML-DSA signing failed")) else throw e

/-- `mldsaSign`. -/
def mldsaSign : Option Str → Option Bytes → Option Bytes → Jv Bytes := signWith "mldsaSign" fun sk => return sk

/-- `mldsaSignHedged`. -/
def mldsaSignHedged : Option Str → Option Bytes → Option Bytes → Jv Bytes :=
  signWith "mldsaSignHedged" fun sk => call (.newParametersWithRandom sk)

/-! ## ML-KEM -/

/-- `mlkemKeygen`. -/
def mlkemKeygen (level : Option Str) : Jv (Bytes × Bytes) := do
  let level ← check (requireLevel "mlkemKeygen" level)
  let g ← call .newMlkemKeyPairGenerator
  let params ← check (mlkemParams level)
  let parameters ← call (.newMlkemKeyGenerationParameters params)
  call (.init g parameters)
  let kp ← call (.generateKeyPair g)
  let publicKey ← call (.getPublic kp)
  let pk ← call (.getEncoded publicKey)
  let privateKey ← call (.getPrivate kp)
  let sk ← call (.getEncoded privateKey)
  return (pk, sk)

/-- `mlkemEncapsulate`: the ciphertext and the shared secret. -/
def mlkemEncapsulate (level : Option Str) (publicKey : Option Bytes) : Jv (Bytes × Bytes) := do
  let level ← check (requireLevel "mlkemEncapsulate" level)
  let len ← check (mlkemLengths level)
  let length ← check (element len 0)
  let publicKey ← check (requireLength "mlkemEncapsulate" "publicKey" publicKey length)
  let params ← check (mlkemParams level)
  let pk ← call (.newMlkemPublicKeyParameters params publicKey)
  let generator ← call .newMlkemGenerator
  let enc ← call (.generateEncapsulated generator pk)
  let ciphertext ← call (.getEncapsulation enc)
  let sharedSecret ← call (.getSecret enc)
  return (ciphertext, sharedSecret)

/-- `mlkemDecapsulate`. -/
def mlkemDecapsulate (level : Option Str) (secretKey ciphertext : Option Bytes) : Jv Bytes := do
  let level ← check (requireLevel "mlkemDecapsulate" level)
  let len ← check (mlkemLengths level)
  let length ← check (element len 1)
  let secretKey ← check (requireLength "mlkemDecapsulate" "secretKey" secretKey length)
  let length ← check (element len 2)
  let ciphertext ← check (requireLength "mlkemDecapsulate" "ciphertext" ciphertext length)
  let params ← check (mlkemParams level)
  let sk ← call (.newMlkemPrivateKeyParameters params secretKey)
  let extractor ← call (.newMlkemExtractor sk)
  call (.extractSecret params extractor ciphertext)

/-! ## SHAKE-256 -/

/-- `shake256`. -/
def shake256 (data : Option Bytes) (outLen : Int) : Jv Bytes := do
  let data ← check (requireArray "shake256" "data" data)
  if outLen < 0 then
    throw (.illegalArgument (str ("shake256: outLen must be >= 0, got " ++ toString outLen)))
  else
    let d ← call (.newShakeDigest 256)
    call (.update d data)
    let out ← check (newByteArray outLen)
    call (.doFinal d out)

/-- `pubkeyHash`. -/
def pubkeyHash (publicKey : Option Bytes) (len : Int) : Jv Bytes := do
  let publicKey ← check (requireArray "pubkeyHash" "publicKey" publicKey)
  if len < 0 then
    throw (.illegalArgument (str ("pubkeyHash: len must be >= 0, got " ++ toString len)))
  else
    shake256 (some publicKey) len

end QorechainPqc.Java
