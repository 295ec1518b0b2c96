import QorechainPqc.Liboqs.C
import QorechainPqc.Liboqs.Python
import QorechainPqc.Verify.Verdict

/-!
# Verification over liboqs

What liboqs and liboqs-python have to answer for the C and the Python binding to give the verdict. The C function checks
the length of the public key itself and leaves that of the signature to liboqs; the method in Python checks both, and
nothing is known of what liboqs-python does with other sizes.
-/

namespace QorechainPqc

open Failing Program

variable {V : Fips204} {l : MlDsa.Level}

/-! ## C -/

namespace C

/-- What liboqs answers: it knows the level, computes FIPS-204 on exact sizes and refuses signatures of other sizes. -/
structure Computes (env : ∀ q, Ans q) (V : Fips204) (l : MlDsa.Level) : Prop where
  sigNew : env (.sigNew (Text.utf8 l.oqsName.toList)) = some (.ofLevel l)
  exact : ∀ pk msg sig, l.Exact pk sig → env (.verify (.ofLevel l) msg sig pk) = V l pk msg sig
  refuses : ∀ pk msg sig, sig.length ≠ l.sizes.signature → env (.verify (.ofLevel l) msg sig pk) = false

variable {env : ∀ q, Ans q}

/-- **`qpqc_mldsa_verify`** on byte strings of any lengths. -/
theorem qpqcMldsaVerify_eq (h : Computes env V l) (pk msg sig : Bytes) :
    (qpqcMldsaVerify (Text.utf8 l.oqsName.toList) pk msg sig).eval env =
      if pk.length ≠ l.sizes.publicKey then qpqcErr else if V.verdict l pk msg sig then 1 else 0 := by
  have hverify (hp : pk.length = l.sizes.publicKey) :
      env (.verify (.ofLevel l) msg sig pk) = V.verdict l pk msg sig := by
    by_cases hs : sig.length = l.sizes.signature
    · rw [h.exact pk msg sig ⟨hp, hs⟩, verdict_of_exact ⟨hp, hs⟩]
    · rw [h.refuses pk msg sig hs, verdict_of_signature hs]
  have hlen : (OqsSig.ofLevel l).lengthPublicKey = l.sizes.publicKey := rfl
  unfold qpqcMldsaVerify
  simp only [Prog.eval_bind, call, Prog.eval_request, h.sigNew, hlen]
  by_cases hp : pk.length = l.sizes.publicKey
  · rw [if_neg (not_not_intro hp), if_neg (not_not_intro hp), ← hverify hp]
    rfl
  · rw [if_pos hp, if_pos hp]
    rfl

/-- It returns 1 for a yes alone. -/
theorem qpqcMldsaVerify_eq_one (h : Computes env V l) (pk msg sig : Bytes) :
    (qpqcMldsaVerify (Text.utf8 l.oqsName.toList) pk msg sig).eval env = 1 ↔ V.verdict l pk msg sig = true := by
  rw [qpqcMldsaVerify_eq h]
  by_cases hp : pk.length = l.sizes.publicKey
  · rw [if_neg (not_not_intro hp)]
    cases V.verdict l pk msg sig <;> decide
  · rw [if_pos hp, verdict_of_publicKey hp]
    decide

end C

/-! ## Python -/

namespace Python

/-- What liboqs-python answers on exact sizes, when no asynchronous exception lands: it computes FIPS-204, or raises an
`Exception` instead of saying no. -/
structure Computes (env : ∀ q, Except Exn (Res q)) (V : Fips204) (l : MlDsa.Level) : Prop where
  boundary : ∀ p, env (.boundary p) = .ok ()
  signatureNew : env (.signatureNew ⟨str l.oqsName, none⟩) = .ok ()
  signatureFree : env (.signatureFree ⟨str l.oqsName, none⟩) = .ok ()
  exact : ∀ pk msg sig, l.Exact pk sig →
    Gives (fun e : Exn => e.isException = true)
      (env (.verify ⟨str l.oqsName, none⟩ (.ofBytes msg) (.ofBytes sig) (.ofBytes pk))) (V l pk msg sig)

variable {env : ∀ q, Except Exn (Res q)}

/-- The `with` block inside the `try` block. -/
theorem eval_withSignature (h : Computes env V l) (block : Py Bool) :
    (withSignature ⟨str l.oqsName, none⟩ block).eval env = block.eval env := by
  simp [withSignature, call, h.signatureNew, h.boundary, h.signatureFree]

/-- The lengths of objects of the type `bytes`. -/
theorem badLengths_ofBytes (pk sig : Bytes) :
    (MlDsa.ofLevel l).badLengths (.ofBytes pk) (.ofBytes sig) = .ok (decide ¬l.Exact pk sig) := by
  have hpk : (MlDsa.ofLevel l).publicKeyLen = l.sizes.publicKey := rfl
  have hsig : (MlDsa.ofLevel l).signatureLen = l.sizes.signature := rfl
  by_cases hp : pk.length = l.sizes.publicKey
  · by_cases hs : sig.length = l.sizes.signature
    · simp [MlDsa.badLengths, BytesObject.ofBytes, MlDsa.Level.Exact, hpk, hsig, hp, hs]
    · simp [MlDsa.badLengths, BytesObject.ofBytes, MlDsa.Level.Exact, hpk, hsig, hp, hs]
  · simp [MlDsa.badLengths, BytesObject.ofBytes, MlDsa.Level.Exact, hpk, hp]

/-- **`MlDsa.verify`** on byte strings of any lengths. -/
theorem verify_eq (h : Computes env V l) (pk msg sig : Bytes) :
    ((MlDsa.ofLevel l).verify (.ofBytes pk) (.ofBytes msg) (.ofBytes sig)).eval env = .ok (V.verdict l pk msg sig) := by
  have halg : (MlDsa.ofLevel l).alg = str l.oqsName := rfl
  simp only [MlDsa.verify, Arg.ofBytes, Raising.eval_bind, Raising.eval_ofExcept, ok_bind, badLengths_ofBytes,
    Raising.eval_ite, Raising.eval_pure, Raising.eval_tryCatch, Raising.eval_throw, halg, eval_withSignature h,
    decide_eq_true_eq]
  by_cases hx : l.Exact pk sig
  · rw [if_neg (not_not_intro hx), verdict_of_exact hx]
    refine Gives.tryCatch_eq ?_ fun e he => if_pos he
    have hanswer := h.exact pk msg sig hx
    change Gives _ (env (.verify ⟨str l.oqsName, none⟩ (.ofBytes msg) (.ofBytes sig) (.ofBytes pk)) >>= fun a =>
      env (.boundary .body) >>= fun _ => .ok a) _
    rw [h.boundary]
    generalize env (.verify ⟨str l.oqsName, none⟩ (.ofBytes msg) (.ofBytes sig) (.ofBytes pk)) = answer at hanswer ⊢
    cases answer with
    | ok a => exact hanswer
    | error e => exact hanswer
  · rw [if_pos hx, verdict_of_not_exact hx]

end Python

end QorechainPqc
