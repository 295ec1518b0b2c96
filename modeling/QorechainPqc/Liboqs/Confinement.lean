import QorechainPqc.Liboqs.C

/-!
# Which schemes the C binding runs

The C functions hand the name they are given to liboqs and use the scheme that comes back. A build of liboqs is a
`Registry` of the schemes it knows, most of which are neither ML-DSA nor ML-KEM. The header speaks of these two alone
and promises shared secrets of 32 bytes, but nothing in the functions looks at the name: a call is `Confined` exactly if
liboqs does not know the name, or gives one of the parameter sets for it, or a length check refuses (`confined_iff`).

`foreign_schemes` has a signature of another scheme with the random bytes it draws all zero, and a shared secret of 64
bytes.
-/

namespace QorechainPqc.C

open Program

/-- The schemes that a build of liboqs knows, by name. -/
structure Registry where
  sig : Bytes → Option OqsSig
  kem : Bytes → Option OqsKem

/-- What liboqs may answer: the scheme of the name, or `NULL`; anything else may succeed or fail. -/
@[simp] def Registry.mayAnswer (reg : Registry) : ∀ q : Req, Ans q → Prop
  | .sigNew alg, s => s = none ∨ s = reg.sig alg
  | .kemNew alg, k => k = none ∨ k = reg.kem alg
  | _, _ => True

/-! ## What a request uses -/

/-- A scheme is run only if it is one of the parameter sets. -/
@[simp] def Req.Proper : Req → Prop
  | .keypair s => s.set ≠ none
  | .sign s _ _ => s.set ≠ none
  | .verify s _ _ _ => s.set ≠ none
  | .encaps k _ => k.set ≠ none
  | .decaps k _ _ => k.set ≠ none
  | _ => True

/-- The bytes that are written to `ss_out`. -/
def Req.secretOut : Req → Nat
  | .encaps k _ => k.lengthSharedSecret
  | .decaps k _ _ => k.lengthSharedSecret
  | _ => 0

/-- A scheme is looked up or freed, and nothing else happens. -/
@[simp] def Req.Quiet : Req → Prop
  | .sigNew _ => True
  | .sigFree => True
  | .kemNew _ => True
  | .kemFree => True
  | _ => False

theorem Req.Proper.secretOut_le {q : Req} (h : q.Proper) : q.secretOut ≤ 32 := by
  cases q with
  | encaps k pk => exact (OqsKem.sharedSecret_eq h).le
  | decaps k ct sk => exact (OqsKem.sharedSecret_eq h).le
  | _ => exact Nat.zero_le 32

/-! ## Confinement -/

/-- The name of the call is that of an ML-DSA set, or of an ML-KEM set. -/
def Registry.Denotes (reg : Registry) : Call → Prop
  | .keygen alg => ∃ s ∈ reg.sig alg, s.set ≠ none
  | .sign alg _ _ => ∃ s ∈ reg.sig alg, s.set ≠ none
  | .signHedged alg _ _ => ∃ s ∈ reg.sig alg, s.set ≠ none
  | .verify alg _ _ _ => ∃ s ∈ reg.sig alg, s.set ≠ none
  | .decapsulate alg _ _ => ∃ k ∈ reg.kem alg, k.set ≠ none
  | .encapsulate alg _ => ∃ k ∈ reg.kem alg, k.set ≠ none

/-- A run of a call runs the parameter sets alone and keeps to 32 bytes of shared secret; with any other name it returns
`QPQC_ERR` and does nothing. -/
structure Confined (reg : Registry) (c : Call) (tr : List (Event Req Ans)) (r : Int) : Prop where
  proper : ∀ e ∈ tr, e.1.Proper
  secrets : ∀ e ∈ tr, e.1.secretOut ≤ 32
  others : ¬reg.Denotes c → r = qpqcErr ∧ ∀ e ∈ tr, e.1.Quiet

/-- liboqs does not know the name, or gives a parameter set for it, or a length check refuses. -/
def Registry.Harmless (reg : Registry) : Call → Prop
  | .keygen alg => ∀ s ∈ reg.sig alg, s.set ≠ none
  | .sign alg sk _ => ∀ s ∈ reg.sig alg, sk.length = s.lengthSecretKey → s.set ≠ none
  | .signHedged alg sk _ => ∀ s ∈ reg.sig alg, sk.length = s.lengthSecretKey → s.set ≠ none
  | .verify alg pk _ _ => ∀ s ∈ reg.sig alg, pk.length = s.lengthPublicKey → s.set ≠ none
  | .decapsulate alg sk ct =>
    ∀ k ∈ reg.kem alg, sk.length = k.lengthSecretKey → ct.length = k.lengthCiphertext → k.set ≠ none
  | .encapsulate alg pk => ∀ k ∈ reg.kem alg, pk.length = k.lengthPublicKey → k.set ≠ none

/-! ## Footprints -/

/-- What has been asked so far was proper; was quiet. -/
structure Footprint where
  proper : Prop
  quiet : Prop

/-- How a footprint grows. -/
def footprint (reg : Registry) : Logic Req Ans Footprint where
  pre _ _ := True
  ok := reg.mayAnswer
  next q _ g := ⟨g.proper ∧ q.Proper, g.quiet ∧ q.Quiet⟩

/-- A footprint that a call may leave, whose name denotes a set if `known`. -/
def Footprint.Fine (known : Prop) (r : Int) (g : Footprint) : Prop := g.proper ∧ (¬known → r = qpqcErr ∧ g.quiet)

section Footprint

variable {reg : Registry}

@[simp] theorem footprint_pre {q : Req} {g : Footprint} : (footprint reg).pre q g := trivial

@[simp] theorem footprint_ok {q : Req} {a : Ans q} : (footprint reg).ok q a ↔ reg.mayAnswer q a := Iff.rfl

@[simp] theorem footprint_next {q : Req} {a : Ans q} {g : Footprint} :
    (footprint reg).next q a g = ⟨g.proper ∧ q.Proper, g.quiet ∧ q.Quiet⟩ := rfl

theorem footprint_after (reg : Registry) (tr : List (Event Req Ans)) (g : Footprint) :
    (((footprint reg).after g tr).proper ↔ g.proper ∧ ∀ e ∈ tr, e.1.Proper) ∧
      (((footprint reg).after g tr).quiet ↔ g.quiet ∧ ∀ e ∈ tr, e.1.Quiet) := by
  induction tr generalizing g with
  | nil => simp
  | cons e tr ih =>
    rw [Logic.after_cons, (ih _).1, (ih _).2]
    simp only [footprint_next, List.forall_mem_cons, and_assoc, and_self]

/-- A run is confined exactly if its footprint is fine. -/
theorem confined_iff_fine {c : Call} {tr : List (Event Req Ans)} {r : Int} :
    Confined reg c tr r ↔ ((footprint reg).after ⟨True, True⟩ tr).Fine (reg.Denotes c) r := by
  obtain ⟨hproper, hquiet⟩ := footprint_after reg tr ⟨True, True⟩
  rw [true_and] at hproper hquiet
  unfold Footprint.Fine
  rw [hproper, hquiet]
  exact ⟨fun h => ⟨h.proper, h.others⟩, fun h => ⟨h.1, fun e he => (h.1 e he).secretOut_le, h.2⟩⟩

end Footprint

/-! ## The functions -/

section Functions

variable {reg : Registry} (alg pk sk msg sig ct : Bytes)

theorem fine_keygen : (qpqcMldsaKeygen alg).wp (footprint reg)
    (Footprint.Fine (reg.Denotes (.keygen alg))) ⟨True, True⟩ ↔ reg.Harmless (.keygen alg) := by
  cases h : reg.sig alg with
  | none => simp [qpqcMldsaKeygen, call, Footprint.Fine, Registry.Harmless, h]
  | some s => simp [qpqcMldsaKeygen, call, Footprint.Fine, Registry.Harmless, Registry.Denotes, h]

theorem fine_sign : (qpqcMldsaSign alg sk msg).wp (footprint reg)
    (Footprint.Fine (reg.Denotes (.sign alg sk msg))) ⟨True, True⟩ ↔ reg.Harmless (.sign alg sk msg) := by
  cases h : reg.sig alg with
  | none => simp [qpqcMldsaSign, call, Footprint.Fine, Registry.Harmless, h]
  | some s =>
    simp [qpqcMldsaSign, oqsSigSign, call, Footprint.Fine, Registry.Harmless, Registry.Denotes, h, Option.forall]

theorem fine_signHedged : (qpqcMldsaSignHedged alg sk msg).wp (footprint reg)
    (Footprint.Fine (reg.Denotes (.signHedged alg sk msg))) ⟨True, True⟩ ↔ reg.Harmless (.signHedged alg sk msg) := by
  cases h : reg.sig alg with
  | none => simp [qpqcMldsaSignHedged, call, Footprint.Fine, Registry.Harmless, h]
  | some s =>
    simp [qpqcMldsaSignHedged, oqsSigSign, call, Footprint.Fine, Registry.Harmless, Registry.Denotes, h, Option.forall]

theorem fine_verify : (qpqcMldsaVerify alg pk msg sig).wp (footprint reg)
    (Footprint.Fine (reg.Denotes (.verify alg pk msg sig))) ⟨True, True⟩ ↔ reg.Harmless (.verify alg pk msg sig) := by
  cases h : reg.sig alg with
  | none => simp [qpqcMldsaVerify, call, Footprint.Fine, Registry.Harmless, h]
  | some s => simp [qpqcMldsaVerify, call, Footprint.Fine, Registry.Harmless, Registry.Denotes, h]

theorem fine_decapsulate : (qpqcMlkemDecapsulate alg sk ct).wp (footprint reg)
    (Footprint.Fine (reg.Denotes (.decapsulate alg sk ct))) ⟨True, True⟩ ↔ reg.Harmless (.decapsulate alg sk ct) := by
  cases h : reg.kem alg with
  | none => simp [qpqcMlkemDecapsulate, call, Footprint.Fine, Registry.Harmless, h]
  | some k => simp [qpqcMlkemDecapsulate, call, Footprint.Fine, Registry.Harmless, Registry.Denotes, h]

theorem fine_encapsulate : (qpqcMlkemEncapsulate alg pk).wp (footprint reg)
    (Footprint.Fine (reg.Denotes (.encapsulate alg pk))) ⟨True, True⟩ ↔ reg.Harmless (.encapsulate alg pk) := by
  cases h : reg.kem alg with
  | none => simp [qpqcMlkemEncapsulate, call, Footprint.Fine, Registry.Harmless, h]
  | some k => simp [qpqcMlkemEncapsulate, call, Footprint.Fine, Registry.Harmless, Registry.Denotes, h]

end Functions

/-- **Every function** leaves a fine footprint exactly where the registry is harmless. -/
theorem fine_prog (reg : Registry) (c : Call) :
    c.prog.wp (footprint reg) (Footprint.Fine (reg.Denotes c)) ⟨True, True⟩ ↔ reg.Harmless c := by
  cases c with
  | keygen alg => exact fine_keygen alg
  | sign alg sk msg => exact fine_sign alg sk msg
  | signHedged alg sk msg => exact fine_signHedged alg sk msg
  | verify alg pk msg sig => exact fine_verify alg pk msg sig
  | decapsulate alg sk ct => exact fine_decapsulate alg sk ct
  | encapsulate alg pk => exact fine_encapsulate alg pk

/-- **When a call is confined**: for every build of liboqs and every call, whatever fails, exactly if liboqs does not
know the name, or gives a parameter set for it, or a length check refuses. -/
theorem confined_iff (reg : Registry) (c : Call) :
    (∀ tr r, Run reg.mayAnswer c.prog tr r → Confined reg c tr r) ↔ reg.Harmless c := by
  rw [← fine_prog, Prog.wp_iff_run fun _ _ => trivial]
  exact forall₃_congr fun tr r _ => confined_iff_fine

/-! ## Two other schemes -/

/-- Falcon-512, a signature scheme. -/
def falcon512 : OqsSig := ⟨none, 897, 1281, 752, nofun⟩

/-- HQC-128, a KEM with a shared secret of 64 bytes. -/
def hqc128 : OqsKem := ⟨none, 2249, 2305, 4433, 64, nofun⟩

/-- A build of liboqs that knows the two. -/
def foreign : Registry where
  sig alg := if alg = Text.utf8 "Falcon-512".toList then some falcon512 else none
  kem alg := if alg = Text.utf8 "HQC-128".toList then some hqc128 else none

theorem foreign_sig : foreign.sig (Text.utf8 "Falcon-512".toList) = some falcon512 := by simp only [foreign, if_true]

theorem foreign_kem : foreign.kem (Text.utf8 "HQC-128".toList) = some hqc128 := by simp only [foreign, if_true]

/-- A deterministic signature with Falcon-512 is made while the zero filler is selected. -/
def signFalconTrace (sk : Bytes) : List (Event Req Ans) :=
  [⟨.sigNew (Text.utf8 "Falcon-512".toList), some falcon512⟩, ⟨.malloc 752, some 1⟩, ⟨.storePtr .sig (some 1), ()⟩,
    ⟨.mutexLock, ()⟩, ⟨.customZero, ()⟩, ⟨.sign falcon512 [] sk, (true, some 656)⟩, ⟨.storeLen .sigLen 656, ()⟩,
    ⟨.switchSystem, ()⟩, ⟨.mutexUnlock, ()⟩, ⟨.sigFree, ()⟩]

theorem mem_signFalconTrace (sk : Bytes) : ⟨.sign falcon512 [] sk, (true, some 656)⟩ ∈ signFalconTrace sk := by
  simp [signFalconTrace]

theorem run_signFalcon {sk : Bytes} (hsk : sk.length = falcon512.lengthSecretKey) : Run foreign.mayAnswer
    (Call.sign (Text.utf8 "Falcon-512".toList) sk []).prog (signFalconTrace sk) qpqcOk := by
  refine .ask (.inr foreign_sig.symm) ?_
  change Run _ (if sk.length ≠ falcon512.lengthSecretKey then _ else _) _ _
  rw [if_neg (not_not_intro hsk)]
  refine .ask trivial (.ask trivial ?_)
  refine .ask trivial (.ask trivial ?_)
  refine .ask trivial (.ask trivial ?_)
  refine .ask trivial (.ask trivial ?_)
  exact .ask trivial (.ret _)

/-- An encapsulation with HQC-128 writes 64 bytes to `ss_out`. -/
def encapsulateHqcTrace (pk : Bytes) : List (Event Req Ans) :=
  [⟨.kemNew (Text.utf8 "HQC-128".toList), some hqc128⟩, ⟨.malloc 4433, some 1⟩, ⟨.storePtr .ct (some 1), ()⟩,
    ⟨.mutexLock, ()⟩, ⟨.encaps hqc128 pk, true⟩, ⟨.mutexUnlock, ()⟩, ⟨.storeLen .ctLen 4433, ()⟩,
    ⟨.storeLen .ssLen 64, ()⟩, ⟨.kemFree, ()⟩]

theorem mem_encapsulateHqcTrace (pk : Bytes) : ⟨.encaps hqc128 pk, true⟩ ∈ encapsulateHqcTrace pk := by
  simp [encapsulateHqcTrace]

theorem run_encapsulateHqc {pk : Bytes} (hpk : pk.length = hqc128.lengthPublicKey) : Run foreign.mayAnswer
    (Call.encapsulate (Text.utf8 "HQC-128".toList) pk).prog (encapsulateHqcTrace pk) qpqcOk := by
  refine .ask (.inr foreign_kem.symm) ?_
  change Run _ (if pk.length ≠ hqc128.lengthPublicKey then _ else _) _ _
  rw [if_neg (not_not_intro hpk)]
  refine .ask trivial (.ask trivial ?_)
  refine .ask trivial (.ask trivial ?_)
  refine .ask trivial (.ask trivial ?_)
  exact .ask trivial (.ask trivial (.ret _))

/-- **Two calls that are not confined**: a signature of Falcon-512 with zeros for its random bytes, and 64 bytes of
shared secret where the header promises 32. -/
theorem foreign_schemes :
    (¬∀ tr r, Run foreign.mayAnswer (Call.sign (Text.utf8 "Falcon-512".toList) (List.replicate 1281 0) []).prog tr r →
      Confined foreign (.sign (Text.utf8 "Falcon-512".toList) (List.replicate 1281 0) []) tr r) ∧
    (¬∀ tr r, Run foreign.mayAnswer (Call.encapsulate (Text.utf8 "HQC-128".toList) (List.replicate 2249 0)).prog tr r →
      ∀ e ∈ tr, e.1.secretOut ≤ 32) := by
  refine ⟨fun h => ?_, fun h => ?_⟩
  · exact (h _ _ (run_signFalcon List.length_replicate)).proper _ (mem_signFalconTrace _) rfl
  · have hout : 64 ≤ 32 := h _ _ (run_encapsulateHqc List.length_replicate) _ (mem_encapsulateHqcTrace _)
    exact absurd hout (by decide)

end QorechainPqc.C
