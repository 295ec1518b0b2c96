import QorechainPqc.BouncyCastle.Objects
import QorechainPqc.Keys.Unfailing

/-!
# Keys, signatures and ciphertexts travel between the bindings

The libraries behind the bindings follow the standards (`Libraries` for the three that keep no state of their own here,
the machine of Bouncy Castle, and the calls over liboqs in any interleaving of threads). Then

* every binding makes the same deterministic signature (`same_signature`),
* what one binding signs with a key of another one, every binding accepts (`signed_accepted`),
* what one binding encapsulates, every binding decapsulates (`encapsulated_decapsulated`),
* a secret key of another level, and the seed that is the secret key in Java, are no secret keys elsewhere
  (`signed_of_keypair`).
-/

namespace QorechainPqc

open Program

/-- Every binding accepts a signature. -/
structure Accepted (b : Backends) (l : MlDsa.Level) (pk m sig : Bytes) : Prop where
  go : (Go.sigScheme b.circl l).verify pk m sig = true
  rust : Rust.verify (b.fips204 l) pk m sig = true
  js : Js.verify b.noble l (.bytes pk) (.bytes m) (.bytes sig) = .ok true
  python : ((Python.MlDsa.ofLevel l).verify (.ofBytes pk) (.ofBytes m) (.ofBytes sig)).eval b.liboqsPython = .ok true
  java : Java.mldsaVerify b.bouncyCastle (some (Java.str l.name)) (some pk) (some m) (some sig) = .ok true
  c : (C.qpqcMldsaVerify (C.sigAlg l) pk m sig).eval b.liboqs = 1

theorem accepted_of_verdict {b : Backends} {V : Fips204} (hb : b.Compute V) {l : MlDsa.Level} {pk m sig : Bytes}
    (hv : V.verdict l pk m sig = true) : Accepted b l pk m sig where
  go := (Go.verify_eq (hb.circl l) pk m sig).trans hv
  rust := (Rust.verify_eq (hb.fips204 l) pk m sig).trans hv
  js := (Js.verify_eq (hb.noble l) pk m sig).trans (congrArg Except.ok hv)
  python := (Python.verify_eq (hb.liboqsPython l) pk m sig).trans (congrArg Except.ok hv)
  java := (Java.mldsaVerify_eq (hb.bouncyCastle l) pk m sig).trans (congrArg Except.ok hv)
  c := (C.qpqcMldsaVerify_eq_one (hb.liboqs l) pk m sig).mpr hv

/-- No binding accepts a signature. -/
structure Rejected (b : Backends) (l : MlDsa.Level) (pk m sig : Bytes) : Prop where
  go : (Go.sigScheme b.circl l).verify pk m sig = false
  rust : Rust.verify (b.fips204 l) pk m sig = false
  js : Js.verify b.noble l (.bytes pk) (.bytes m) (.bytes sig) = .ok false
  python : ((Python.MlDsa.ofLevel l).verify (.ofBytes pk) (.ofBytes m) (.ofBytes sig)).eval b.liboqsPython = .ok false
  java : Java.mldsaVerify b.bouncyCastle (some (Java.str l.name)) (some pk) (some m) (some sig) = .ok false
  c : (C.qpqcMldsaVerify (C.sigAlg l) pk m sig).eval b.liboqs ≠ 1

theorem rejected_of_verdict {b : Backends} {V : Fips204} (hb : b.Compute V) {l : MlDsa.Level} {pk m sig : Bytes}
    (hv : V.verdict l pk m sig = false) : Rejected b l pk m sig where
  go := (Go.verify_eq (hb.circl l) pk m sig).trans hv
  rust := (Rust.verify_eq (hb.fips204 l) pk m sig).trans hv
  js := (Js.verify_eq (hb.noble l) pk m sig).trans (congrArg Except.ok hv)
  python := (Python.verify_eq (hb.liboqsPython l) pk m sig).trans (congrArg Except.ok hv)
  java := (Java.mldsaVerify_eq (hb.bouncyCastle l) pk m sig).trans (congrArg Except.ok hv)
  c h := Bool.false_ne_true (hv.symm.trans ((C.qpqcMldsaVerify_eq_one (hb.liboqs l) pk m sig).mp h))

variable {S : MlDsa.Standard} {K : MlKem.Standard} {X : Shake256}

section Relations

variable (L : Libraries S K X) (sys : Bytes → Prop)

/-! ## What a binding has made -/

/-- A binding other than the Java one has made a key pair, from a seed or from random bytes. -/
inductive Keypair (l : MlDsa.Level) : Bytes → Bytes → Prop
  | js {pk sk : Bytes} (h : (Js.keygen l none).eval L.js = .ok (pk, sk)) : Keypair l pk sk
  | jsSeed {pk sk : Bytes} (ξ : Sized 32) (h : (Js.keygen l (some (.bytes ξ.1))).eval L.js = .ok (pk, sk)) :
      Keypair l pk sk
  | go {pk sk : Bytes} (h : (Go.Signer.ofLevel l).keygen.eval L.go = .ok (pk, sk)) : Keypair l pk sk
  | goSeed {pk sk : Bytes} (ξ : Sized 32) (h : ((Go.Signer.ofLevel l).keygenFromSeed ξ.1).eval L.go = .ok (pk, sk)) :
      Keypair l pk sk
  | rust {pk sk : Bytes} (h : (Rust.keygen l).eval L.rust = .ok (pk, sk)) : Keypair l pk sk
  | rustSeed {pk sk : Bytes} (ξ : Sized 32) (h : (Rust.keygenFromSeed l ξ).eval L.rust = .ok (pk, sk)) :
      Keypair l pk sk
  | c {b : C.Buffers} {pk sk : Bytes} (h : C.Ran S K sys (.keygen (C.sigAlg l)) b) (hpk : b.pk = some pk)
      (hsk : b.sk = some sk) : Keypair l pk sk
  | python {pk sk : Bytes} (h : Python.Ran S K sys (.keygen (.ofLevel l)) (.pair pk sk)) : Keypair l pk sk

/-- The Java binding has made a key pair; the secret key is the seed. -/
inductive JavaKeypair (l : MlDsa.Level) : Bytes → Bytes → Prop
  | keygen {pk sk : Bytes} (h : L.java.Ran (Java.mldsaKeygen (some (Java.str l.name))) (pk, sk)) :
      JavaKeypair l pk sk
  | fromSeed {pk sk : Bytes} (ξ : Sized 32)
      (h : L.java.Ran (Java.mldsaKeygenFromSeed (some (Java.str l.name)) (some ξ.1)) (pk, sk)) :
      JavaKeypair l pk sk

/-- A binding other than the Java one has made a signature, deterministic or hedged. -/
inductive Signed (l : MlDsa.Level) (sk m : Bytes) : Bytes → Prop
  | js {sig : Bytes} {opts : Js.Opts} {hedged : Bool} (ho : opts.hedged = .ok hedged)
      (h : (Js.sign l (.bytes sk) (.bytes m) opts).eval L.js = .ok sig) : Signed l sk m sig
  | go {sig : Bytes} (h : ((Go.Signer.ofLevel l).sign sk m).eval L.go = .ok sig) : Signed l sk m sig
  | goHedged {sig : Bytes} (h : ((Go.Signer.ofLevel l).signHedged sk m).eval L.go = .ok sig) : Signed l sk m sig
  | rust {sig : Bytes} (h : (Rust.sign l sk m).eval L.rust = .ok sig) : Signed l sk m sig
  | rustHedged {sig : Bytes} (h : (Rust.signHedged l sk m).eval L.rust = .ok sig) : Signed l sk m sig
  | c {b : C.Buffers} {sig : Bytes} (h : C.Ran S K sys (.sign (C.sigAlg l) sk m) b) (hsig : b.sig = some sig) :
      Signed l sk m sig
  | cHedged {b : C.Buffers} {sig : Bytes} (h : C.Ran S K sys (.signHedged (C.sigAlg l) sk m) b)
      (hsig : b.sig = some sig) : Signed l sk m sig
  | python {sig : Bytes} (hedged : Bool)
      (h : Python.Ran S K sys (.sign (.ofLevel l) (.ofBytes sk) (.ofBytes m) hedged) (.bytes sig)) : Signed l sk m sig

/-- The Java binding has made a signature. -/
inductive JavaSigned (l : MlDsa.Level) (sk m : Bytes) : Bytes → Prop
  | sign {sig : Bytes} (h : L.java.Ran (Java.mldsaSign (some (Java.str l.name)) (some sk) (some m)) sig) :
      JavaSigned l sk m sig
  | hedged {sig : Bytes} (h : L.java.Ran (Java.mldsaSignHedged (some (Java.str l.name)) (some sk) (some m)) sig) :
      JavaSigned l sk m sig

end Relations

variable {L : Libraries S K X} {sys : Bytes → Prop} {l l' : MlDsa.Level} {pk sk m sig : Bytes}

/-! ### They are those of the standards -/

theorem Keypair.standard (h : Keypair L sys l pk sk) : ∃ ξ, pk = (S.keygen l ξ).1.1 ∧ sk = (S.keygen l ξ).2.1 := by
  cases h with
  | js h =>
    obtain ⟨ξ, hξ⟩ := Js.keygen_eq L.js_follows l
    rw [hξ] at h
    cases h
    exact ⟨ξ, rfl, rfl⟩
  | jsSeed ξ h =>
    rw [Js.keygen_seed_eq L.js_follows] at h
    cases h
    exact ⟨ξ, rfl, rfl⟩
  | go h =>
    obtain ⟨ξ, hξ⟩ := Go.keygen_eq L.go_follows l
    rw [hξ] at h
    cases h
    exact ⟨ξ, rfl, rfl⟩
  | goSeed ξ h =>
    rw [Go.keygenFromSeed_eq L.go_follows] at h
    cases h
    exact ⟨ξ, rfl, rfl⟩
  | rust h =>
    obtain ⟨ξ, hξ⟩ := Rust.keygen_eq L.rust_follows l
    rw [hξ] at h
    cases h
    exact ⟨ξ, rfl, rfl⟩
  | rustSeed ξ h =>
    rw [Rust.keygenFromSeed_eq L.rust_follows] at h
    cases h
    exact ⟨ξ, rfl, rfl⟩
  | c h hpk hsk =>
    obtain ⟨ξ, -, hpk', hsk', -⟩ := h.meets l rfl
    exact ⟨ξ, Option.some.inj (hpk.symm.trans hpk'), Option.some.inj (hsk.symm.trans hsk')⟩
  | python h =>
    obtain ⟨ξ, -, hv⟩ := h.meets l rfl
    cases hv
    exact ⟨ξ, rfl, rfl⟩

theorem JavaKeypair.standard (h : JavaKeypair L l pk sk) : ∃ ξ : Sized 32, pk = (S.keygen l ξ).1.1 ∧ sk = ξ.1 := by
  cases h with
  | keygen h =>
    obtain ⟨ξ, hξ⟩ := h.of_returns (Java.mldsaKeygen_eq l)
    cases hξ
    exact ⟨ξ, rfl, rfl⟩
  | fromSeed ξ h =>
    have hξ := h.of_returns (Java.mldsaKeygenFromSeed_eq l ξ)
    cases hξ
    exact ⟨ξ, rfl, rfl⟩

/-- What is signed outside Java is signed with a key of the size of the level. -/
theorem Signed.length_key (h : Signed L sys l sk m sig) : sk.length = l.sizes.secretKey := by
  by_contra hlen
  cases h with
  | @js sig opts hedged ho h =>
    obtain ⟨e, he⟩ : ∃ e, (Js.sign l (.bytes sk) (.bytes m) opts).eval L.js = .error e :=
      Js.sign_of_length hlen m opts
    rw [he] at h
    cases h
  | go h =>
    obtain ⟨⟨text, ht⟩, -⟩ := Go.sign_of_length L.go_follows hlen m
    rw [ht] at h
    cases h
  | goHedged h =>
    obtain ⟨-, text, ht⟩ := Go.sign_of_length L.go_follows hlen m
    rw [ht] at h
    cases h
  | rust h =>
    rw [(Rust.sign_of_length hlen m).1, Raising.eval_throw] at h
    cases h
  | rustHedged h =>
    rw [(Rust.sign_of_length hlen m).2, Raising.eval_throw] at h
    cases h
  | c h _ =>
    obtain ⟨k, rfl, -⟩ := h.meets l rfl
    exact hlen k.2
  | cHedged h _ =>
    obtain ⟨k, rnd, rfl, -⟩ := h.meets l rfl
    exact hlen k.2
  | python hedged h =>
    obtain ⟨k, rnd, rfl, -⟩ := h.meets l sk m rfl rfl rfl
    exact hlen k.2

/-- With a generated key, it is a signature of the standard. -/
theorem Signed.standard {ξ : Sized 32} (h : Signed L sys l (S.keygen l ξ).2.1 m sig) :
    ∃ rnd, sig = (S.sign l (S.keygen l ξ).2 m rnd).1 := by
  generalize hsk : (S.keygen l ξ).2.1 = sk at h
  cases h with
  | @js sig opts hedged ho h =>
    subst hsk
    cases hedged with
    | false =>
      rw [Js.sign_eq L.js_follows l ξ m ho] at h
      exact ⟨_, (Except.ok.inj h).symm⟩
    | true =>
      obtain ⟨rnd, hrnd⟩ := Js.sign_hedged_eq L.js_follows l ξ m ho
      rw [hrnd] at h
      exact ⟨rnd, (Except.ok.inj h).symm⟩
  | go h =>
    subst hsk
    rw [Go.sign_eq L.go_follows] at h
    exact ⟨_, (Except.ok.inj h).symm⟩
  | goHedged h =>
    subst hsk
    obtain ⟨rnd, hrnd⟩ := Go.signHedged_eq L.go_follows l ξ m
    rw [hrnd] at h
    exact ⟨rnd, (Except.ok.inj h).symm⟩
  | rust h =>
    subst hsk
    rw [Rust.sign_eq L.rust_follows] at h
    exact ⟨_, (Except.ok.inj h).symm⟩
  | rustHedged h =>
    subst hsk
    obtain ⟨rnd, hrnd⟩ := Rust.signHedged_eq L.rust_follows l ξ m
    rw [hrnd] at h
    exact ⟨rnd, (Except.ok.inj h).symm⟩
  | c h hsig =>
    obtain ⟨k, rfl, hk, -⟩ := h.meets l rfl
    obtain rfl := Subtype.ext hsk
    exact ⟨_, Option.some.inj (hsig.symm.trans hk)⟩
  | cHedged h hsig =>
    obtain ⟨k, rnd, rfl, -, hk, -⟩ := h.meets l rfl
    obtain rfl := Subtype.ext hsk
    exact ⟨rnd, Option.some.inj (hsig.symm.trans hk)⟩
  | python hedged h =>
    obtain ⟨k, rnd, rfl, -, hv⟩ := h.meets l sk m rfl rfl rfl
    obtain rfl := Subtype.ext hsk
    exact ⟨rnd, Python.Returned.bytes.inj hv⟩

theorem JavaSigned.standard (h : JavaSigned L l sk m sig) :
    ∃ ξ rnd, sk = ξ.1 ∧ sig = (S.sign l (S.keygen l ξ).2 m rnd).1 := by
  have hlen : sk.length = 32 := by
    by_contra hlen
    cases h with
    | sign h =>
      obtain ⟨text, ht⟩ := Java.sign_of_length (l := l) hlen "mldsaSign" (fun sk => return sk) (some m)
      rw [Java.mldsaSign, ht] at h
      exact Java.Implementation.not_ran_throw h
    | hedged h =>
      obtain ⟨text, ht⟩ := Java.sign_of_length (l := l) hlen "mldsaSignHedged"
        (fun sk => Java.call (.newParametersWithRandom sk)) (some m)
      rw [Java.mldsaSignHedged, ht] at h
      exact Java.Implementation.not_ran_throw h
  cases h with
  | sign h => exact ⟨⟨sk, hlen⟩, _, rfl, h.of_returns (Java.mldsaSign_eq l ⟨sk, hlen⟩ m)⟩
  | hedged h =>
    obtain ⟨rnd, hrnd⟩ := h.of_returns (Java.mldsaSignHedged_eq l ⟨sk, hlen⟩ m)
    exact ⟨⟨sk, hlen⟩, rnd, rfl, hrnd⟩

/-! ## Signatures -/

/-- **One deterministic signature**: for every level, seed and message, the four bindings that keep no global state
return, and every call over liboqs that ends well in whatever interleaving returns, the same signature; Java from the
seed, the others from the expanded key of the same seed. The calls over liboqs do end well where nothing fails. -/
theorem same_signature (L : Libraries S K X) {sys : Bytes → Prop} (hsys : Supplies sys) (l : MlDsa.Level)
    (ξ : Sized 32) (m : Bytes) :
    (∀ opts : Js.Opts, opts.hedged = .ok false → (Js.sign l (.bytes (S.keygen l ξ).2.1) (.bytes m) opts).eval L.js =
      .ok (S.signDeterministic l (S.keygen l ξ).2 m).1) ∧
    ((Go.Signer.ofLevel l).sign (S.keygen l ξ).2.1 m).eval L.go = .ok (S.signDeterministic l (S.keygen l ξ).2 m).1 ∧
    (Rust.sign l (S.keygen l ξ).2.1 m).eval L.rust = .ok (S.signDeterministic l (S.keygen l ξ).2 m).1 ∧
    L.java.Returns (Java.mldsaSign (some (Java.str l.name)) (some ξ.1) (some m))
      (fun sig => sig = (S.signDeterministic l (S.keygen l ξ).2 m).1) ∧
    (C.Succeeds S K sys (.sign (C.sigAlg l) (S.keygen l ξ).2.1 m) ∧
      ∀ b, C.Ran S K sys (.sign (C.sigAlg l) (S.keygen l ξ).2.1 m) b →
        b.sig = some (S.signDeterministic l (S.keygen l ξ).2 m).1 ∧ b.len .sigLen = some l.sizes.signature) ∧
    (Python.Succeeds S K sys (.sign (.ofLevel l) (.ofBytes (S.keygen l ξ).2.1) (.ofBytes m) false) ∧
      ∀ v, Python.Ran S K sys (.sign (.ofLevel l) (.ofBytes (S.keygen l ξ).2.1) (.ofBytes m) false) v →
        v = .bytes (S.signDeterministic l (S.keygen l ξ).2 m).1) := by
  refine ⟨fun opts ho => ?_, ?_, ?_, ?_, ⟨?_, fun b hb => ?_⟩, ?_, fun v hv => ?_⟩
  · exact Js.sign_eq L.js_follows l ξ m ho
  · exact Go.sign_eq L.go_follows l ξ m
  · exact Rust.sign_eq L.rust_follows l ξ m
  · exact L.java.returns (Java.mldsaSign_eq l ξ m)
  · exact C.succeeds hsys ⟨l, rfl, (S.keygen l ξ).2.2⟩
  · obtain ⟨k, hk, hsig, hlen⟩ := hb.meets l rfl
    obtain rfl := Subtype.ext hk
    exact ⟨hsig, hlen⟩
  · exact Python.succeeds hsys ⟨l, (S.keygen l ξ).2, m, rfl, rfl, rfl⟩
  · obtain ⟨k, rnd, hk, hrnd, rfl⟩ := hv.meets l _ m rfl rfl rfl
    obtain rfl := Subtype.ext hk
    obtain rfl : rnd = .zeros 32 := hrnd
    rfl

/-- `same_signature` for the level 44, the seed of zeros and a message of three bytes, with ones for the keys. -/
theorem same_signature_zeros :
    ((Go.Signer.ofLevel .l44).sign (MlDsa.Standard.ones.keygen .l44 (.zeros 32)).2.1 [1, 2, 3]).eval
      (Libraries.reference .ones .coins fun _ _ => 0).go =
        .ok (Sized.fill 2420 (1 :: ((Sized.zeros 32).1 ++ [1, 2, 3]))).1 ∧
    ∃ b, C.Ran .ones .coins (fun _ => True)
      (.sign (C.sigAlg .l44) (MlDsa.Standard.ones.keygen .l44 (.zeros 32)).2.1 [1, 2, 3]) b ∧
        b.sig = some (Sized.fill 2420 (1 :: ((Sized.zeros 32).1 ++ [1, 2, 3]))).1 := by
  obtain ⟨-, hgo, -, -, ⟨⟨⟨b, hb⟩, -⟩, hc⟩, -⟩ :=
    same_signature (Libraries.reference .ones .coins fun _ _ => 0) supplies_any .l44 (.zeros 32) [1, 2, 3]
  exact ⟨hgo, b, hb, (hc b hb).1⟩

theorem Signed.accepted {b : Backends} (hb : b.Compute S.verify) (hkey : Keypair L sys l pk sk)
    (hsigned : Signed L sys l sk m sig) : Accepted b l pk m sig := by
  obtain ⟨ξ, rfl, rfl⟩ := hkey.standard
  obtain ⟨rnd, rfl⟩ := hsigned.standard
  exact accepted_of_verdict hb (S.verdict_sign l ξ m rnd)

theorem JavaSigned.accepted {b : Backends} (hb : b.Compute S.verify) (hkey : JavaKeypair L l pk sk)
    (hsigned : JavaSigned L l sk m sig) : Accepted b l pk m sig := by
  obtain ⟨ξ, rfl, rfl⟩ := hkey.standard
  obtain ⟨ξ', rnd, hξ, rfl⟩ := hsigned.standard
  obtain rfl := Subtype.ext hξ
  exact accepted_of_verdict hb (S.verdict_sign l ξ m rnd)

/-- **Signatures travel**: whatever binding has made the key pair, whatever binding has signed with it, in whatever
variant and in whatever interleaving, every binding accepts the signature. -/
theorem signed_accepted (L : Libraries S K X) (sys : Bytes → Prop) {b : Backends} (hb : b.Compute S.verify)
    (l : MlDsa.Level) (pk sk m sig : Bytes) :
    (Keypair L sys l pk sk → Signed L sys l sk m sig → Accepted b l pk m sig) ∧
    (JavaKeypair L l pk sk → JavaSigned L l sk m sig → Accepted b l pk m sig) :=
  ⟨fun hkey hsigned => hsigned.accepted hb hkey, fun hkey hsigned => hsigned.accepted hb hkey⟩

/-- `signed_accepted` for a key pair that Go has made from the seed of zeros, and a signature that Rust has made with
it. -/
theorem signed_accepted_go_rust :
    Accepted (.reference MlDsa.Standard.ones.verify) .l44 (Sized.fill 1312 (Sized.zeros 32).1).1 [1, 2, 3]
      (Sized.fill 2420 (1 :: ((Sized.zeros 32).1 ++ [1, 2, 3]))).1 := by
  let L := Libraries.reference .ones .coins fun _ _ => 0
  have hkey : Keypair L (fun _ => True) .l44 (MlDsa.Standard.ones.keygen .l44 (.zeros 32)).1.1
      (MlDsa.Standard.ones.keygen .l44 (.zeros 32)).2.1 :=
    .goSeed (.zeros 32) (Go.keygenFromSeed_eq L.go_follows .l44 (.zeros 32))
  have hsigned : Signed L (fun _ => True) .l44 (MlDsa.Standard.ones.keygen .l44 (.zeros 32)).2.1 [1, 2, 3]
      (MlDsa.Standard.ones.signDeterministic .l44 (MlDsa.Standard.ones.keygen .l44 (.zeros 32)).2 [1, 2, 3]).1 :=
    .rust (Rust.sign_eq L.rust_follows .l44 (.zeros 32) [1, 2, 3])
  exact (signed_accepted L (fun _ => True) (Backends.reference_compute _) .l44 _ _ _ _).1 hkey hsigned

theorem publicKey_injective {l l' : MlDsa.Level} (h : l.sizes.publicKey = l'.sizes.publicKey) : l = l' := by
  cases l <;> cases l' <;> first | rfl | exact absurd h (by decide)

theorem secretKey_injective {l l' : MlDsa.Level} (h : l.sizes.secretKey = l'.sizes.secretKey) : l = l' := by
  cases l <;> cases l' <;> first | rfl | exact absurd h (by decide)

theorem secretKey_ne_seed (l : MlDsa.Level) : l.sizes.secretKey ≠ 32 := by cases l <;> decide

theorem signature_injective {l l' : MlDsa.Level} (h : l.sizes.signature = l'.sizes.signature) : l = l' := by
  cases l <;> cases l' <;> first | rfl | exact absurd h (by decide)

/-- **Secret keys are not confused**: with a key of another level no binding signs that takes expanded keys, the seed
that is the secret key in Java is none of their keys, and an expanded key is no key in Java. Java cannot tell the level
from a seed; what it signs at another level, no binding accepts at the level of the key, nor, with the public key of the
seed, at any level. -/
theorem signed_of_keypair (L : Libraries S K X) (sys : Bytes → Prop) {b : Backends}
    (hb : b.Compute S.verify) (l l' : MlDsa.Level) (pk sk m sig : Bytes) :
    (Keypair L sys l pk sk → Signed L sys l' sk m sig → l' = l) ∧
    (JavaKeypair L l pk sk → ¬Signed L sys l' sk m sig) ∧
    (Keypair L sys l pk sk → ¬JavaSigned L l' sk m sig) ∧
    (JavaSigned L l' sk m sig → l' ≠ l → Rejected b l pk m sig) ∧
    (JavaKeypair L l pk sk → JavaSigned L l' sk m sig → l' ≠ l → ∀ l'', Rejected b l'' pk m sig) := by
  have hother {l'' : MlDsa.Level} (hsigned : JavaSigned L l' sk m sig) (hne : l' ≠ l'') :
      Rejected b l'' pk m sig := by
    obtain ⟨ξ, rnd, -, rfl⟩ := hsigned.standard
    refine rejected_of_verdict hb (verdict_of_signature fun hlen => hne (signature_injective ?_))
    exact (S.sign l' (S.keygen l' ξ).2 m rnd).2.symm.trans hlen
  refine ⟨fun hkey hsigned => ?_, fun hkey hsigned => ?_, fun hkey hsigned => ?_, fun hsigned hne => ?_,
    fun hkey hsigned hne l'' => ?_⟩
  · obtain ⟨ξ, -, rfl⟩ := hkey.standard
    exact secretKey_injective (hsigned.length_key.symm.trans (S.keygen l ξ).2.2)
  · obtain ⟨ξ, -, rfl⟩ := hkey.standard
    exact secretKey_ne_seed l' (hsigned.length_key.symm.trans ξ.2)
  · obtain ⟨ξ, -, rfl⟩ := hkey.standard
    obtain ⟨ξ', rnd, hξ, -⟩ := hsigned.standard
    exact Sized.val_ne (secretKey_ne_seed l) _ ξ' hξ
  · exact hother hsigned hne
  · by_cases hl : l' = l''
    · -- the signature is of the level of the verifier, and the public key is not
      obtain ⟨ξ, rfl, -⟩ := hkey.standard
      refine rejected_of_verdict hb (verdict_of_publicKey fun hlen => hne (hl.trans (publicKey_injective ?_)))
      exact hlen.symm.trans (S.keygen l ξ).1.2
    · exact hother hsigned hl

/-- `signed_of_keypair` for the keys of the seed of zeros at the level 44: with Go's nothing is signed at the level 65,
and what Java signs there with its own, no binding accepts at any level. -/
theorem signed_of_keypair_zeros :
    (∀ sig, ¬Signed (Libraries.reference .ones .coins fun _ _ => 0) (fun _ => True) .l65
      (MlDsa.Standard.ones.keygen .l44 (.zeros 32)).2.1 [1, 2, 3] sig) ∧
    ∃ sig, JavaSigned (Libraries.reference .ones .coins fun _ _ => 0) .l65 (Sized.zeros 32).1 [1, 2, 3] sig ∧
      ∀ l'', Rejected (.reference MlDsa.Standard.ones.verify) l'' (MlDsa.Standard.ones.keygen .l44 (.zeros 32)).1.1
        [1, 2, 3] sig := by
  let L := Libraries.reference .ones .coins fun _ _ => 0
  have hkey : Keypair L (fun _ => True) .l44 (MlDsa.Standard.ones.keygen .l44 (.zeros 32)).1.1
      (MlDsa.Standard.ones.keygen .l44 (.zeros 32)).2.1 :=
    .goSeed (.zeros 32) (Go.keygenFromSeed_eq L.go_follows .l44 (.zeros 32))
  have hempty : L.java.Holds ([] : Java.Heap) [] := rfl
  obtain ⟨r, hr⟩ := Java.Implementation.exists_ran hempty (Java.mldsaKeygenFromSeed_eq .l44 (.zeros 32))
  obtain ⟨sig, hsig⟩ := Java.Implementation.exists_ran hempty (Java.mldsaSign_eq .l65 (.zeros 32) [1, 2, 3])
  obtain rfl := hr.of_returns (Java.mldsaKeygenFromSeed_eq .l44 (.zeros 32))
  have hconfused := signed_of_keypair L (fun _ => True) (Backends.reference_compute _) .l44 .l65
    (MlDsa.Standard.ones.keygen .l44 (.zeros 32)).1.1
  refine ⟨fun sig hsigned => absurd ((hconfused _ _ sig).1 hkey hsigned) (by decide), sig, .sign hsig, ?_⟩
  exact (hconfused _ _ sig).2.2.2.2 (.fromSeed (.zeros 32) hr) (.sign hsig) (by decide)

/-! ## Encapsulation -/

section Relations

variable (L : Libraries S K X) (sys : Bytes → Prop)

/-- A binding has made an ML-KEM key pair; the C binding makes none. -/
inductive KemKeypair (l : MlKem.Level) : Bytes → Bytes → Prop
  | js {pk sk : Bytes} (h : (Js.kemKeygen l none).eval L.js = .ok (pk, sk)) : KemKeypair l pk sk
  | jsSeed {pk sk : Bytes} (seed : Sized 64) (h : (Js.kemKeygen l (some (.bytes seed.1))).eval L.js = .ok (pk, sk)) :
      KemKeypair l pk sk
  | go {pk sk : Bytes} (h : (Go.Kem.ofLevel l).keygen.eval L.go = .ok (pk, sk)) : KemKeypair l pk sk
  | rust {pk sk : Bytes} (h : (Rust.kemKeygen l).eval L.rust = .ok (pk, sk)) : KemKeypair l pk sk
  | java {pk sk : Bytes} (h : L.java.Ran (Java.mlkemKeygen (some (Java.str l.name))) (pk, sk)) : KemKeypair l pk sk
  | python {pk sk : Bytes} (h : Python.Ran S K sys (.kemKeygen (.ofLevel l)) (.pair pk sk)) : KemKeypair l pk sk

/-- A binding has encapsulated to a public key: the ciphertext and the shared secret. -/
inductive Encapsulated (l : MlKem.Level) (pk : Bytes) : Bytes → Bytes → Prop
  | js {ct ss : Bytes} (h : (Js.encapsulate l (.bytes pk)).eval L.js = .ok (ct, ss)) : Encapsulated l pk ct ss
  | go {ct ss : Bytes} (h : ((Go.Kem.ofLevel l).encapsulate pk).eval L.go = .ok (ct, ss)) : Encapsulated l pk ct ss
  | rust {ct ss : Bytes} (h : (Rust.encapsulate l pk).eval L.rust = .ok (ct, ss)) : Encapsulated l pk ct ss
  | java {ct ss : Bytes} (h : L.java.Ran (Java.mlkemEncapsulate (some (Java.str l.name)) (some pk)) (ct, ss)) :
      Encapsulated l pk ct ss
  | c {b : C.Buffers} {ct ss : Bytes} (h : C.Ran S K sys (.encapsulate (C.kemAlg l) pk) b) (hct : b.ct = some ct)
      (hss : b.ss = some ss) : Encapsulated l pk ct ss
  | python {ct ss : Bytes} (h : Python.Ran S K sys (.encapsulate (.ofLevel l) (.ofBytes pk)) (.pair ct ss)) :
      Encapsulated l pk ct ss

/-- Every binding decapsulates a ciphertext to a secret; a call over liboqs can end well, does where nothing fails, and
gives the secret wherever it ends well. -/
structure Decapsulated (l : MlKem.Level) (sk ct ss : Bytes) : Prop where
  js : (Js.decapsulate l (.bytes sk) (.bytes ct)).eval L.js = .ok ss
  go : ((Go.Kem.ofLevel l).decapsulate sk ct).eval L.go = .ok ss
  rust : (Rust.decapsulate l sk ct).eval L.rust = .ok ss
  java : L.java.Returns (Java.mlkemDecapsulate (some (Java.str l.name)) (some sk) (some ct)) fun r => r = ss
  c : C.Succeeds S K sys (.decapsulate (C.kemAlg l) sk ct) ∧
    ∀ b, C.Ran S K sys (.decapsulate (C.kemAlg l) sk ct) b → b.ss = some ss ∧ b.len .ssLen = some 32
  python : Python.Succeeds S K sys (.decapsulate (.ofLevel l) (.ofBytes sk) (.ofBytes ct)) ∧
    ∀ v, Python.Ran S K sys (.decapsulate (.ofLevel l) (.ofBytes sk) (.ofBytes ct)) v → v = .bytes ss

end Relations

theorem KemKeypair.standard {l : MlKem.Level} (h : KemKeypair L sys l pk sk) :
    ∃ seed, pk = (K.keygen l seed).1.1 ∧ sk = (K.keygen l seed).2.1 := by
  cases h with
  | js h =>
    obtain ⟨seed, hs⟩ := Js.kemKeygen_eq L.js_follows l
    rw [hs] at h
    cases h
    exact ⟨seed, rfl, rfl⟩
  | jsSeed seed h =>
    rw [Js.kemKeygen_seed_eq L.js_follows] at h
    cases h
    exact ⟨seed, rfl, rfl⟩
  | go h =>
    obtain ⟨seed, hs⟩ := Go.kem_keygen_eq L.go_follows l
    rw [hs] at h
    cases h
    exact ⟨seed, rfl, rfl⟩
  | rust h =>
    obtain ⟨seed, hs⟩ := Rust.kemKeygen_eq L.rust_follows l
    rw [hs] at h
    cases h
    exact ⟨seed, rfl, rfl⟩
  | java h =>
    obtain ⟨seed, hs⟩ := h.of_returns (Java.mlkemKeygen_eq l)
    cases hs
    exact ⟨seed, rfl, rfl⟩
  | python h =>
    obtain ⟨seed, -, hv⟩ := h.meets l rfl
    cases hv
    exact ⟨seed, rfl, rfl⟩

theorem Encapsulated.standard {l : MlKem.Level} {seed : Sized 64} {ct ss : Bytes}
    (h : Encapsulated L sys l (K.keygen l seed).1.1 ct ss) :
    ∃ coin, ct = (K.encaps l (K.keygen l seed).1 coin).1.1 ∧ ss = (K.encaps l (K.keygen l seed).1 coin).2.1 := by
  generalize hpk : (K.keygen l seed).1.1 = pk at h
  cases h with
  | js h =>
    subst hpk
    obtain ⟨coin, hc⟩ := Js.encapsulate_eq L.js_follows l seed
    rw [hc] at h
    cases h
    exact ⟨coin, rfl, rfl⟩
  | go h =>
    subst hpk
    obtain ⟨coin, hc⟩ := Go.encapsulate_eq L.go_follows l seed
    rw [hc] at h
    cases h
    exact ⟨coin, rfl, rfl⟩
  | rust h =>
    subst hpk
    obtain ⟨coin, hc⟩ := Rust.encapsulate_eq L.rust_follows l seed
    rw [hc] at h
    cases h
    exact ⟨coin, rfl, rfl⟩
  | java h =>
    subst hpk
    obtain ⟨coin, hc⟩ := h.of_returns (Java.mlkemEncapsulate_eq l (K.keygen l seed).1)
    cases hc
    exact ⟨coin, rfl, rfl⟩
  | c h hct hss =>
    obtain ⟨p, coin, rfl, -, hct', hss', -⟩ := h.meets l rfl
    obtain rfl := Subtype.ext hpk
    exact ⟨coin, Option.some.inj (hct.symm.trans hct'), Option.some.inj (hss.symm.trans hss')⟩
  | python h =>
    obtain ⟨p, coin, rfl, -, hv⟩ := h.meets l pk rfl rfl
    obtain rfl := Subtype.ext hpk
    cases hv
    exact ⟨coin, rfl, rfl⟩

theorem decapsulated_standard (L : Libraries S K X) (hsys : Supplies sys) (l : MlKem.Level)
    (seed : Sized 64) (c : Sized l.sizes.ciphertext) :
    Decapsulated L sys l (K.keygen l seed).2.1 c.1 (K.decaps l (K.keygen l seed).2 c).1 where
  js := Js.decapsulate_eq L.js_follows l seed c
  go := Go.decapsulate_eq L.go_follows l seed c
  rust := Rust.decapsulate_eq L.rust_follows l seed c
  java := L.java.returns (Java.mlkemDecapsulate_eq l (K.keygen l seed).2 c)
  c := by
    refine ⟨C.succeeds hsys ⟨l, rfl, (K.keygen l seed).2.2, c.2⟩, fun b hb => ?_⟩
    obtain ⟨d, c', hd, hc, hss, hlen⟩ := hb.meets l rfl
    obtain rfl := Subtype.ext hd
    obtain rfl := Subtype.ext hc
    exact ⟨hss, hlen⟩
  python := by
    refine ⟨Python.succeeds hsys ⟨l, (K.keygen l seed).2, c, rfl, rfl, rfl⟩, fun v hv => ?_⟩
    obtain ⟨d, c', hd, hc, rfl⟩ := hv.meets l _ _ rfl rfl rfl
    obtain rfl := Subtype.ext hd
    obtain rfl := Subtype.ext hc
    rfl

/-- ML-KEM recovers the secret of a ciphertext, whatever seed and coin are behind it. -/
def MlKem.Standard.RecoversAt (K : MlKem.Standard) (l : MlKem.Level) (pk ct : Bytes) : Prop :=
  ∀ seed coin, pk = (K.keygen l seed).1.1 → ct = (K.encaps l (K.keygen l seed).1 coin).1.1 → K.Recovers l seed coin

/-- **Secrets travel**: whatever binding has made the key pair and whatever binding has encapsulated to it, in whatever
interleaving, every binding decapsulates the ciphertext to the same secret, where ML-KEM itself recovers it. -/
theorem encapsulated_decapsulated (L : Libraries S K X) (hsys : Supplies sys) {l : MlKem.Level}
    {pk sk ct ss : Bytes} (hkey : KemKeypair L sys l pk sk) (henc : Encapsulated L sys l pk ct ss)
    (hK : K.RecoversAt l pk ct) : Decapsulated L sys l sk ct ss := by
  obtain ⟨seed, rfl, rfl⟩ := hkey.standard
  obtain ⟨coin, rfl, rfl⟩ := henc.standard
  have hrecovers := hK seed coin rfl rfl
  have hdec := decapsulated_standard L hsys l seed (K.encaps l (K.keygen l seed).1 coin).1
  rwa [hrecovers] at hdec

/-- `encapsulated_decapsulated` for a key pair of JavaScript and an encapsulation by Go. -/
theorem encapsulated_decapsulated_js_go :
    Decapsulated (Libraries.reference .ones .coins fun _ _ => 0) (fun _ => True) .l512
      (Sized.fill 1632 (Sized.zeros 64).1).1 (Sized.fill 768 (Sized.zeros 32).1).1 (Sized.zeros 32).1 := by
  let L := Libraries.reference .ones .coins fun _ _ => 0
  have hkey : KemKeypair L (fun _ => True) .l512 (MlKem.Standard.coins.keygen .l512 (.zeros 64)).1.1
      (MlKem.Standard.coins.keygen .l512 (.zeros 64)).2.1 :=
    .jsSeed (.zeros 64) (Js.kemKeygen_seed_eq L.js_follows .l512 (.zeros 64))
  have henc : Encapsulated L (fun _ => True) .l512 (MlKem.Standard.coins.keygen .l512 (.zeros 64)).1.1
      (Sized.fill 768 (Sized.zeros 32).1).1 (Sized.zeros 32).1 :=
    .go (Go.reference_encapsulate .ones .coins .l512 (MlKem.Standard.coins.keygen .l512 (.zeros 64)).1)
  exact encapsulated_decapsulated L supplies_any hkey henc fun seed coin _ _ =>
    MlKem.Standard.coins_recovers .l512 seed coin

end QorechainPqc
