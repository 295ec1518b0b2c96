import QorechainPqc.Keys.Agreement

/-!
# Ciphertexts that nobody has made

Anybody can send a ciphertext. With the secret key of a generated pair, of whatever level, every binding does the same
with whatever byte string it is given: one of the size of the level of the key gives the same secret everywhere, the
one that ML-KEM rejects with if the ciphertext is forged, and every other one is refused everywhere
(`same_decapsulation`). Refused is also a key of another level, and an encapsulation to it.
-/

namespace QorechainPqc

open Program

variable {S : MlDsa.Standard} {K : MlKem.Standard} {X : Shake256}

/-- Every binding refuses to decapsulate: the libraries that keep no state of their own by an error, the Java binding by
an `IllegalArgumentException`, and no call over liboqs succeeds in whatever interleaving. -/
structure Undecapsulated (L : Libraries S K X) (sys : Bytes → Prop) (l : MlKem.Level) (sk ct : Bytes) : Prop where
  js : ∃ e, (Js.decapsulate l (.bytes sk) (.bytes ct)).eval L.js = .error e
  go : ∃ text, ((Go.Kem.ofLevel l).decapsulate sk ct).eval L.go = .error (.error text none)
  rust : ∃ text, (Rust.decapsulate l sk ct).eval L.rust = .error (.err text)
  java : ∃ text, Java.mlkemDecapsulate (some (Java.str l.name)) (some sk) (some ct) = throw (.illegalArgument text)
  c : ∀ b, ¬C.Ran S K sys (.decapsulate (C.kemAlg l) sk ct) b
  python : ∀ v, ¬Python.Ran S K sys (.decapsulate (.ofLevel l) (.ofBytes sk) (.ofBytes ct)) v

variable {L : Libraries S K X} {sys : Bytes → Prop} {l l' : MlKem.Level} {pk sk ct ss : Bytes}

/-- Keys and ciphertexts of the sizes of the level are needed. -/
theorem undecapsulated (hgo : Go.RefusesSizes L.go)
    (hlen : sk.length ≠ l.sizes.secretKey ∨ ct.length ≠ l.sizes.ciphertext)
    (hsk : sk.length = l.sizes.secretKey → ∃ seed, sk = (K.keygen l seed).2.1) : Undecapsulated L sys l sk ct where
  js := Js.decapsulate_of_length hlen
  go := Go.decapsulate_of_length L.go_follows hgo hlen hsk
  rust := by
    rw [Rust.decapsulate_of_length hlen]
    exact ⟨_, Raising.eval_throw _⟩
  java := Java.mlkemDecapsulate_of_length hlen
  c b hb := by
    obtain ⟨d, c, rfl, rfl, -⟩ := hb.meets l rfl
    exact hlen.elim (fun h => h d.2) fun h => h c.2
  python v hv := by
    obtain ⟨d, c, rfl, rfl, -⟩ := hv.meets l _ _ rfl rfl rfl
    exact hlen.elim (fun h => h d.2) fun h => h c.2

/-- What is encapsulated is encapsulated to a key of the size of the level. -/
theorem Encapsulated.length_key (hgo : Go.RefusesSizes L.go) (h : Encapsulated L sys l pk ct ss) :
    pk.length = l.sizes.publicKey := by
  by_contra hlen
  cases h with
  | js h =>
    obtain ⟨e, he⟩ : ∃ e, (Js.encapsulate l (.bytes pk)).eval L.js = .error e := Js.encapsulate_of_length hlen
    rw [he] at h
    cases h
  | go h =>
    obtain ⟨text, ht⟩ := Go.encapsulate_of_length hgo hlen
    rw [ht] at h
    cases h
  | rust h =>
    rw [Rust.encapsulate_of_length hlen, Raising.eval_throw] at h
    cases h
  | java h =>
    obtain ⟨text, ht⟩ := Java.mlkemEncapsulate_of_length hlen
    rw [ht] at h
    exact Java.Implementation.not_ran_throw h
  | c h _ _ =>
    obtain ⟨p, coin, rfl, -⟩ := h.meets l rfl
    exact hlen p.2
  | python h =>
    obtain ⟨p, coin, rfl, -⟩ := h.meets l pk rfl rfl
    exact hlen p.2

theorem MlKem.publicKey_injective (h : l.sizes.publicKey = l'.sizes.publicKey) : l = l' := by
  cases l <;> cases l' <;> first | rfl | exact absurd h (by decide)

theorem MlKem.secretKey_injective (h : l.sizes.secretKey = l'.sizes.secretKey) : l = l' := by
  cases l <;> cases l' <;> first | rfl | exact absurd h (by decide)

/-- **One answer to every ciphertext**: with the secret key of a pair that some binding has made, at the level of the
pair, every byte string of the size of a ciphertext is decapsulated by every binding to the same secret, forged or not.
Every other byte string is refused by every binding, and at another level everything is; nor does any binding
encapsulate to the public key at another level. -/
theorem same_decapsulation (hsys : Supplies sys) (hgo : Go.RefusesSizes L.go) (hkey : KemKeypair L sys l pk sk)
    (ct : Bytes) :
    (ct.length = l.sizes.ciphertext → ∃ ss, Decapsulated L sys l sk ct ss) ∧
    (ct.length ≠ l.sizes.ciphertext → Undecapsulated L sys l sk ct) ∧
    (∀ l', l' ≠ l → Undecapsulated L sys l' sk ct ∧ ∀ ct' ss', ¬Encapsulated L sys l' pk ct' ss') := by
  obtain ⟨seed, rfl, rfl⟩ := hkey.standard
  refine ⟨fun hlen => ?_, fun hlen => ?_, fun l' hne => ⟨?_, fun ct' ss' henc => ?_⟩⟩
  · exact ⟨_, decapsulated_standard L hsys l seed ⟨ct, hlen⟩⟩
  · exact undecapsulated hgo (.inr hlen) fun _ => ⟨seed, rfl⟩
  · have hsize : (K.keygen l seed).2.1.length ≠ l'.sizes.secretKey := fun h =>
      hne (MlKem.secretKey_injective (h.symm.trans (K.keygen l seed).2.2))
    exact undecapsulated hgo (.inl hsize) fun h => absurd h hsize
  · exact hne (MlKem.publicKey_injective ((henc.length_key hgo).symm.trans (K.keygen l seed).1.2))

/-- `same_decapsulation` for a key pair of JavaScript, a ciphertext that is all ones, and one that is a byte too
long. -/
theorem same_decapsulation_forged :
    (∃ ss, Decapsulated (Libraries.reference .ones .coins fun _ _ => 0) (fun _ => True) .l768
      (Sized.fill 2400 (Sized.zeros 64).1).1 (List.replicate 1088 1) ss) ∧
    Undecapsulated (Libraries.reference .ones .coins fun _ _ => 0) (fun _ => True) .l768
      (Sized.fill 2400 (Sized.zeros 64).1).1 (List.replicate 1089 1) := by
  let L := Libraries.reference .ones .coins fun _ _ => 0
  have hgo : Go.RefusesSizes L.go := Go.reference_refuses .ones .coins
  have hkey : KemKeypair L (fun _ => True) .l768 (MlKem.Standard.coins.keygen .l768 (.zeros 64)).1.1
      (MlKem.Standard.coins.keygen .l768 (.zeros 64)).2.1 :=
    .jsSeed (.zeros 64) (Js.kemKeygen_seed_eq L.js_follows .l768 (.zeros 64))
  constructor
  · exact (same_decapsulation supplies_any hgo hkey (List.replicate 1088 1)).1 List.length_replicate
  · have hlen : (List.replicate 1089 (1 : UInt8)).length ≠ MlKem.Level.l768.sizes.ciphertext := by
      rw [List.length_replicate]
      decide
    exact (same_decapsulation supplies_any hgo hkey (List.replicate 1089 1)).2.1 hlen

end QorechainPqc
