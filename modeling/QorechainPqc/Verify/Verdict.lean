import QorechainPqc.Liboqs.Scheme

/-!
# The verdict on a signature

What every binding is meant to answer (`Fips204.verdict`), and how a library that may raise an exception instead of
saying no computes it (`Gives`).
-/

namespace QorechainPqc

/-- Verification as in FIPS-204 with the empty context, of a public key, a message and a signature; it means something
on exact sizes only. -/
abbrev Fips204 := MlDsa.Level → Bytes → Bytes → Bytes → Bool

/-- The verdict: the sizes are exact, and the signature is valid. -/
def Fips204.verdict (V : Fips204) (l : MlDsa.Level) (pk msg sig : Bytes) : Bool :=
  decide (l.Exact pk sig) && V l pk msg sig

section Verdict

variable {V : Fips204} {l : MlDsa.Level} {pk msg sig : Bytes}

theorem verdict_of_exact (h : l.Exact pk sig) : V.verdict l pk msg sig = V l pk msg sig := by
  rw [Fips204.verdict, decide_eq_true h, Bool.true_and]

theorem verdict_of_not_exact (h : ¬l.Exact pk sig) : V.verdict l pk msg sig = false := by
  rw [Fips204.verdict, decide_eq_false h, Bool.false_and]

theorem verdict_of_publicKey (h : pk.length ≠ l.sizes.publicKey) : V.verdict l pk msg sig = false :=
  verdict_of_not_exact fun he => h he.1

theorem verdict_of_signature (h : sig.length ≠ l.sizes.signature) : V.verdict l pk msg sig = false :=
  verdict_of_not_exact fun he => h he.2

end Verdict

section Gives

variable {ε : Type} {ordinary : ε → Prop} {x : Except ε Bool} {v : Bool}

/-- A computation gives a verdict: it returns it, or it says no with an ordinary exception. -/
def Gives (ordinary : ε → Prop) (x : Except ε Bool) (v : Bool) : Prop :=
  x = .ok v ∨ v = false ∧ ∃ e, x = .error e ∧ ordinary e

/-- A handler that answers `false` to ordinary exceptions makes it the verdict. -/
theorem Gives.tryCatch_eq (h : Gives ordinary x v) {handler : ε → Except ε Bool}
    (hh : ∀ e, ordinary e → handler e = .ok false) : tryCatch x handler = .ok v := by
  rcases h with rfl | ⟨rfl, e, rfl, he⟩
  · rfl
  · exact hh e he

end Gives

end QorechainPqc
